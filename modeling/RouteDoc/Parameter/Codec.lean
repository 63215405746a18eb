import RouteDoc.Capability
import RouteDoc.Json.Record
import RouteDoc.Parameter.Operation

/-!
# Parameters and operations in JSON

Optional fields that are absent, and empty sets of examples, are left out of the written form; every
other field is written.
-/

set_option autoImplicit false

namespace RouteDoc

open Json

/-- A list of texts as a JSON array. -/
private def texts (l : List String) : Json :=
  .arr (l.map .str)

/-- A set of examples, unless it is empty. -/
private def exampleMember (l : List Json) : Option Json :=
  if l.isEmpty then none else some (.arr l)

/-- Any value, taken as it is. -/
private def anyValue (v : Json) : Option Json :=
  some v

namespace ValueType

/-- The type as JSON. -/
def toJson (t : ValueType) : Json :=
  .str t.name

/-- The type that JSON stands for: its name, or an object whose only member has that name and holds
nothing. -/
def ofJson? : Json → Option ValueType
  | .str s | .obj [(s, .null)] => ofName? s
  | _ => none

end ValueType

namespace Descriptor

/-- The names of the fields, in order. -/
def fieldNames : List String :=
  ["key", "value_type", "format", "description", "example", "examples", "enum_values"]

/-- The descriptor as JSON. -/
def toJson (d : Descriptor) : Json :=
  .obj <| members [
    ("key", some (.str d.key)),
    ("value_type", some d.valueType.toJson),
    ("format", d.format.map .str),
    ("description", d.description.map .str),
    ("example", d.example?),
    ("examples", exampleMember d.examples),
    ("enum_values", d.enumValues.map texts)]

/-- The descriptor that JSON stands for. -/
def ofJson? (v : Json) : Option Descriptor := do
  let m ← record? fieldNames v
  some {
    key := ← field? str? "key" m
    valueType := ← field? ValueType.ofJson? "value_type" m
    format := ← optionalField str? "format" m
    description := ← optionalField str? "description" m
    example? := ← optionalField anyValue "example" m
    examples := ← fieldD arr? [] "examples" m
    enumValues := ← optionalField (listOf str?) "enum_values" m }

end Descriptor

namespace Schema

/-- The names of the fields, in order. -/
def fieldNames : List String :=
  ["type", "format", "description", "example", "examples", "enum"]

/-- The schema as JSON. -/
def toJson (s : Schema) : Json :=
  .obj <| members [
    ("type", some s.valueType.toJson),
    ("format", s.format.map .str),
    ("description", s.description.map .str),
    ("example", s.example?),
    ("examples", exampleMember s.examples),
    ("enum", s.enumValues.map texts)]

/-- The schema that JSON stands for. -/
def ofJson? (v : Json) : Option Schema := do
  let m ← record? fieldNames v
  some {
    valueType := ← field? ValueType.ofJson? "type" m
    format := ← optionalField str? "format" m
    description := ← optionalField str? "description" m
    example? := ← optionalField anyValue "example" m
    examples := ← fieldD arr? [] "examples" m
    enumValues := ← optionalField (listOf str?) "enum" m }

end Schema

namespace Parameter

/-- The names of the fields, in order. -/
def fieldNames : List String :=
  ["name", "in", "example", "schema"]

/-- The parameter as JSON. -/
def toJson (p : Parameter) : Json :=
  .obj <| members [
    ("name", some (.str p.name)),
    ("in", some (.str p.location)),
    ("example", p.example?),
    ("schema", some p.schema.toJson)]

/-- The parameter that JSON stands for. -/
def ofJson? (v : Json) : Option Parameter := do
  let m ← record? fieldNames v
  some {
    name := ← field? str? "name" m
    location := ← field? str? "in" m
    example? := ← optionalField anyValue "example" m
    schema := ← field? Schema.ofJson? "schema" m }

end Parameter

namespace Operation

/-- The names of the fields, in order. -/
def fieldNames : List String :=
  ["operationId", "parameters"]

/-- The operation as JSON. -/
def toJson (op : Operation) : Json :=
  .obj <| members [
    ("operationId", op.id.map .str),
    ("parameters", some (.arr (op.parameters.map Parameter.toJson)))]

/-- The operation that JSON stands for. -/
def ofJson? (v : Json) : Option Operation := do
  let m ← record? fieldNames v
  some {
    id := ← optionalField str? "operationId" m
    parameters := ← fieldD (listOf Parameter.ofJson?) [] "parameters" m }

end Operation

namespace Feature

/-- The feature as JSON. -/
def toJson (f : Feature) : Json :=
  .obj [
    ("kind", .str f.capability.name),
    ("method_name", .str f.capability.builderMethod),
    ("query_parameter_key", .str f.key),
    ("sample_values", texts f.capability.samples),
    ("values", texts f.values)]

end Feature

end RouteDoc
