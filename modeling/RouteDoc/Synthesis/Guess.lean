import RouteDoc.Parameter.Descriptor

/-!
# Guessing a type from a name

Without further word, the ending of a value's name, or else its beginning, tells what it holds.
-/

set_option autoImplicit false

namespace RouteDoc

/-- What the name of a value suggests. -/
inductive Guess where
  /-- A date. -/
  | date
  /-- A number that identifies something. -/
  | identifier
  /-- A truth value. -/
  | flag
  /-- A text. -/
  | text
deriving DecidableEq, Repr

namespace Guess

/-- The name of a guess. -/
def name : Guess → String
  | date => "date"
  | identifier => "identifier"
  | flag => "flag"
  | text => "text"

/-- The type that goes with a guess. -/
def valueType : Guess → ValueType
  | date | text => .string
  | identifier => .integer
  | flag => .boolean

/-- The format that goes with a guess. -/
def format : Guess → Option String
  | date => some "date"
  | _ => none

/-- What a name suggests: its last two letters decide, and then its first word. -/
def ofName (s : String) : Guess :=
  let l := s.toList
  if "at".toList.isSuffixOf l then date
  else if "id".toList.isSuffixOf l then identifier
  else if "ed".toList.isSuffixOf l || "ng".toList.isSuffixOf l then flag
  else if "is_".toList.isPrefixOf l || "has_".toList.isPrefixOf l then flag
  else text

end Guess

end RouteDoc
