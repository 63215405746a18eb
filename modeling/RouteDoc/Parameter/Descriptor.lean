import RouteDoc.Json.Basic

/-!
# Parameter descriptors

What is known about one query parameter before it is laid out for a schema: its key, its type, and
whatever a comment or the name of the value says.
-/

set_option autoImplicit false

namespace RouteDoc

/-- The type of a query parameter. -/
inductive ValueType where
  /-- Text. -/
  | string
  /-- A whole number. -/
  | integer
  /-- A truth value. -/
  | boolean
deriving DecidableEq, Repr

namespace ValueType

/-- All types. -/
def all : List ValueType :=
  [string, integer, boolean]

/-- The name of a type in a schema. -/
def name : ValueType → String
  | string => "string"
  | integer => "integer"
  | boolean => "boolean"

/-- The type of that name. -/
def ofName? (s : String) : Option ValueType :=
  all.find? (·.name == s)

/-- Every type is read back from its name. -/
theorem ofName?_name (t : ValueType) : ofName? t.name = some t := by
  cases t <;> decide

end ValueType

/-- One query parameter. -/
structure Descriptor where
  /-- The query key, such as `filter[user_id]`. -/
  key : String
  /-- The type of its values. -/
  valueType : ValueType
  /-- The format of its texts. -/
  format : Option String := none
  /-- What it is for. -/
  description : Option String := none
  /-- An example of it. -/
  example? : Option Json := none
  /-- All examples of it. -/
  examples : List Json := []
  /-- The values it may take. -/
  enumValues : Option (List String) := none

end RouteDoc
