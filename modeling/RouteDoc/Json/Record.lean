import RouteDoc.Json.Basic

/-!
# Records in JSON

A record with named fields is written as an object. It may be read from an object, where unknown
members are passed over, or from an array of its fields in order, where the last fields may be left
out. A field that is absent takes its default if it has one; an optional field may also be null.
-/

set_option autoImplicit false

namespace RouteDoc.Json

/-- The fields of a record, by name: the members of an object, or the elements of an array under the
names of the fields. An array with more elements than fields is no record. -/
def record? (fields : List String) : Json → Option (List (String × Json))
  | .obj members => some members
  | .arr items => if items.length ≤ fields.length then some (fields.zip items) else none
  | _ => none

/-- A field that has to be there. -/
def field? {α : Type} (read : Json → Option α) (name : String) (members : List (String × Json)) :
    Option α :=
  (members.lookup name).bind read

/-- A field with a default. -/
def fieldD {α : Type} (read : Json → Option α) (default : α) (name : String)
    (members : List (String × Json)) : Option α :=
  match members.lookup name with
  | none => some default
  | some v => read v

/-- An optional value: null stands for none. -/
def optional {α : Type} (read : Json → Option α) : Json → Option (Option α)
  | .null => some none
  | v => (read v).map some

/-- An optional field. -/
def optionalField {α : Type} (read : Json → Option α) (name : String)
    (members : List (String × Json)) : Option (Option α) :=
  fieldD (optional read) none name members

/-- A list of values of one kind. -/
def listOf {α : Type} (read : Json → Option α) : Json → Option (List α)
  | .arr items => items.mapM read
  | _ => none

/-- The members of a record whose optional fields are left out when absent. -/
def members (fields : List (String × Option Json)) : List (String × Json) :=
  fields.filterMap fun (name, v) => v.map (name, ·)

end RouteDoc.Json
