import RouteDoc.Source.Parsed
import RouteDoc.Allowed.Resolved

/-!
# Created values

An allowed value may be created by a method of one of two classes. Which argument holds its name
hangs on the method, and for one method on where the list of values stands.
-/

set_option autoImplicit false

namespace RouteDoc

/-- Where a list of allowed values stands. -/
inductive ListPlace where
  /-- In the call that switches the capability on. -/
  | atCall
  /-- In the result of a method. -/
  | inResult
deriving DecidableEq, Repr

/-- The classes that create allowed values. -/
inductive CreatorClass where
  /-- The one for filters. -/
  | filter
  /-- The one for sorts. -/
  | sort
deriving DecidableEq, Repr

namespace CreatorClass

/-- The name of the class. -/
def name : CreatorClass → String
  | filter => "AllowedFilter"
  | sort => "AllowedSort"

/-- The creator of that name, whatever its namespace. -/
def ofClassName? (className : String) : Option CreatorClass :=
  [filter, sort].find? (·.name == unqualified className)

/-- The methods of filters whose first argument is the name, wherever the list stands. -/
def filterMethods : List String :=
  ["custom", "partial", "exact", "beginsWithStrict", "endsWithStrict", "callback"]

/-- The position of the argument that holds the name. -/
def nameArgument? (c : CreatorClass) (method : String) (place : ListPlace) : Option Nat :=
  match c with
  | filter =>
    if filterMethods.contains method then some 0
    else if method = "scope" ∧ place = .atCall then some 0
    else if method = "autoDetect" then some 1
    else none
  | sort => if method = "callback" ∨ method = "field" then some 0 else none

end CreatorClass

/-- The position of the argument that holds the name of what a call creates. -/
def Creation.nameArgument? (className method : String) (place : ListPlace) : Option Nat :=
  (CreatorClass.ofClassName? className).bind (·.nameArgument? method place)

/-- The value that a call creates. -/
def Creation.value (className method : String) (args : List Shape) (place : ListPlace) : Resolved :=
  match ((nameArgument? className method place).bind (args[·]?)).bind Shape.literal? with
  | some s => .name s
  | none => .unsupported

end RouteDoc
