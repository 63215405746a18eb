import RouteDoc.Allowed.Basic
import RouteDoc.Action

/-!
# Libraries of sources

A library holds sources by the names of their classes, without leading backslashes, and reads them
on demand.
-/

set_option autoImplicit false

namespace RouteDoc

/-- Sources by class name. -/
structure Library where
  /-- The sources, the latest first. -/
  entries : List (String × String) := []
deriving Repr

namespace Library

/-- The library with a source for a class; it takes the place of an earlier one. -/
def insert (l : Library) (className source : String) : Library :=
  ⟨(bareName className, source) :: l.entries⟩

/-- The source for a class. -/
def source? (l : Library) (className : String) : Option String :=
  l.entries.lookup (bareName className)

/-- Loads the source of a class. -/
def load (l : Library) : Loader := fun className =>
  match l.source? className with
  | some s => .ok (.parse (bareName className) s)
  | none => .error (.noSource (bareName className))

/-- What was inserted last for a class is its source. -/
@[simp] theorem source?_insert_self (l : Library) (className source : String) :
    (l.insert className source).source? className = some source := by
  simp [insert, source?]

end Library

end RouteDoc
