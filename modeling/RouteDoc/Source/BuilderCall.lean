import RouteDoc.Capability
import RouteDoc.Code.Cursor
import RouteDoc.Source.Shape

/-!
# Builder calls

The place where a handler switches a capability on: the first call, in preorder, of the capability's
method on some value.
-/

set_option autoImplicit false

namespace RouteDoc

open Code

/-- A call that switches a capability on. -/
structure BuilderCall where
  /-- The capability. -/
  capability : Capability
  /-- The class in which the call stands. -/
  owner : String
  /-- The shapes of its arguments. -/
  arguments : List Shape
deriving Repr

namespace BuilderCall

/-- Whether a node is a call of that method on a value. -/
def isCallOf (method : String) (t : Code.Tree) : Bool :=
  (t.kind == .memberCallExpression || t.kind == .nullsafeMemberCallExpression) &&
    (t.inRole? .name).any fun n => n.kind == .name && n.text == method

/-- The call that switches a capability on in a handler. -/
def find? (handler : Code.Tree) (c : Capability) (owner : String) : Option BuilderCall :=
  (handler.firstWhere? (isCallOf c.builderMethod)).map fun call =>
    ⟨c, owner, Shape.argumentsOf call⟩

end BuilderCall

end RouteDoc
