import RouteDoc.Fault
import RouteDoc.Text.Blank

/-!
# Route actions

A route names its handler by an action: the class, `@`, and the method.
-/

set_option autoImplicit false

namespace RouteDoc

/-- The handler that an action names. -/
structure Handler where
  /-- The class, without leading backslashes. -/
  className : String
  /-- The method. -/
  method : String
deriving DecidableEq, Repr

/-- A class name without its leading backslashes. -/
def bareName (s : String) : String :=
  String.ofList (s.toList.dropWhile (· == '\\'))

/-- Splits an action at its first `@`; neither side may be empty, and the class loses its leading
backslashes only afterwards. -/
def Handler.ofAction (action : String) : Except Fault Handler :=
  let s := action.toList
  let className := s.takeWhile (· != '@')
  match s.dropWhile (· != '@') with
  | _ :: method =>
    if className.isEmpty || method.isEmpty then .error invalid
    else .ok ⟨bareName (String.ofList className), String.ofList method⟩
  | [] => .error invalid
where
  invalid : Fault := .badAction ("expected Controller@method, got '" ++ action ++ "'")

end RouteDoc
