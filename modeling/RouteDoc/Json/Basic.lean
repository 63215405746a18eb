import RouteDoc.Number.Double

/-!
# JSON values

`Json` is the type of JSON documents. An object is its members in order, and a look-up takes the
member of that name; the reader of texts gives each name one member.
-/

set_option autoImplicit false

namespace RouteDoc

/-- A JSON value. -/
inductive Json where
  /-- The null literal. -/
  | null
  /-- A truth value. -/
  | bool (b : Bool)
  /-- A whole number that was written without fraction and power. -/
  | int (i : Int)
  /-- Any other number. -/
  | real (x : Number.Double)
  /-- A string. -/
  | str (s : String)
  /-- An array. -/
  | arr (items : List Json)
  /-- An object, as its members. -/
  | obj (members : List (String × Json))
deriving Inhabited

namespace Json

/-- The member of that name, if the value is an object that has one. -/
def get? (key : String) : Json → Option Json
  | .obj members => members.lookup key
  | _ => none

/-- The text of a string value. -/
def str? : Json → Option String
  | .str s => some s
  | _ => none

/-- The elements of an array value. -/
def arr? : Json → Option (List Json)
  | .arr items => some items
  | _ => none

/-- Whether the value is the null literal. -/
def isNull : Json → Bool
  | .null => true
  | _ => false

/-- The members with the value of one of them set: in its place if the name occurs, else at the end.
-/
def setMember (members : List (String × Json)) (key : String) (value : Json) :
    List (String × Json) :=
  if members.any (·.1 == key) then
    members.map fun m => if m.1 == key then (key, value) else m
  else members ++ [(key, value)]

end Json

end RouteDoc
