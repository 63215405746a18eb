import RouteDoc.Fault
import RouteDoc.Allowed.Creation

/-!
# Working out the allowed values

The values that a builder call allows are given in one of four ways: as a list, as literals one
after the other, by a property of the class, or by a method of the class. A value whose name cannot
be worked out stays in its place as unsupported, but a property's default keeps its literals only.
Where the class or its member cannot be found there are no values.
-/

set_option autoImplicit false

namespace RouteDoc

/-- Finds the source that declares a class. -/
abbrev Loader := String → Except Fault ParsedSource

namespace Allowed

/-- The value of an element of a list. -/
def ofElement (place : ListPlace) : Shape → Resolved
  | .literal s => .name s
  | .classCall className method args => Creation.value className method args place
  | _ => .unsupported

/-- The value of an argument among literals. -/
def ofArgument : Shape → Resolved
  | .literal s => .name s
  | _ => .unsupported

/-- The values of a property's default: its literals. -/
def ofDefault : Shape → List Resolved
  | .list items => items.filterMap fun i => i.literal?.map .name
  | _ => []

/-- The values of what a method first returns. -/
def ofReturn : Option Shape → List Resolved
  | some (.list items) => items.map (ofElement .inResult)
  | _ => []

/-- The values that a property of a class gives. -/
def ofProperty (load : Loader) (owner name : String) : List Resolved :=
  match load owner with
  | .ok u => ((u.property? name).map fun f => ofDefault f.default).getD []
  | .error _ => []

/-- The values that a method of a class gives. -/
def ofMethod (load : Loader) (owner name : String) : List Resolved :=
  match load owner with
  | .ok u => ((u.declaredMethod? name).map fun m => ofReturn m.returned).getD []
  | .error _ => []

/-- The values that a builder call allows; the first argument tells in which way they are given. -/
def resolve (load : Loader) (call : BuilderCall) : List Resolved :=
  match call.arguments with
  | .list items :: _ => items.map (ofElement .atCall)
  | .literal s :: more => .name s :: more.map ofArgument
  | .property name :: _ => ofProperty load call.owner name
  | .method name :: _ => ofMethod load call.owner name
  | _ => []

end Allowed

end RouteDoc
