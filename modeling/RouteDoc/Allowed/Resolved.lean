/-!
# Resolved values

What became of one value that a handler allows: its name, or no name that could be worked out.
-/

set_option autoImplicit false

namespace RouteDoc

/-- The outcome for one allowed value. -/
inductive Resolved where
  /-- The value has this name. -/
  | name (s : String)
  /-- The name could not be worked out. -/
  | unsupported
deriving DecidableEq, Repr

namespace Resolved

/-- The name that stands for a value without one. -/
def placeholder : String := "--not_supported--"

/-- The name under which a value is documented. -/
def rendered : Resolved → String
  | name s => s
  | unsupported => placeholder

/-- Whether the name could be worked out. -/
def isSupported : Resolved → Bool
  | name _ => true
  | unsupported => false

end Resolved

end RouteDoc
