import RouteDoc.Parameter.Descriptor

/-!
# Operations and their parameters

The documented form of a route: an operation with query parameters, each of them described by the
schema of a scalar.
-/

set_option autoImplicit false

namespace RouteDoc

/-- The schema of a scalar. -/
structure Schema where
  /-- Its type. -/
  valueType : ValueType
  /-- The format of its texts. -/
  format : Option String := none
  /-- What it is for. -/
  description : Option String := none
  /-- An example of it. -/
  example? : Option Json := none
  /-- All examples of it. -/
  examples : List Json := []
  /-- The values it may take. -/
  enumValues : Option (List String) := none

/-- A parameter of an operation. -/
structure Parameter where
  /-- Its name in the query. -/
  name : String
  /-- Where clients put it. -/
  location : String
  /-- An example of it. -/
  example? : Option Json := none
  /-- The schema of its values. -/
  schema : Schema

/-- The query parameter of a descriptor. The example stands in the schema as well, unless the schema
has a set of examples. -/
def Parameter.ofDescriptor (d : Descriptor) : Parameter where
  name := d.key
  location := "query"
  example? := d.example?
  schema := {
    valueType := d.valueType
    format := d.format
    description := d.description
    example? := if d.examples.isEmpty then d.example? else none
    examples := d.examples
    enumValues := d.enumValues }

/-- A documented route. -/
structure Operation where
  /-- The name of the operation. -/
  id : Option String := none
  /-- Its parameters, in order. -/
  parameters : List Parameter := []

namespace Operation

/-- An operation with a name and no parameters. -/
def named (id : String) : Operation :=
  { id := some id }

/-- The operation with a parameter more. -/
def push (op : Operation) (p : Parameter) : Operation :=
  { op with parameters := op.parameters ++ [p] }

/-- The first parameter of that name. -/
def parameter? (op : Operation) (name : String) : Option Parameter :=
  op.parameters.find? (·.name == name)

@[simp] theorem parameters_push (op : Operation) (p : Parameter) :
    (op.push p).parameters = op.parameters ++ [p] := rfl

@[simp] theorem id_push (op : Operation) (p : Parameter) : (op.push p).id = op.id := rfl

end Operation

end RouteDoc
