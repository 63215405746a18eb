import RouteDoc.Number.Digits
import RouteDoc.Source.Literal

/-!
# Shapes of values

A shape is what can be told of a value from its expression alone: the elements of a list, the value
of a string literal, a member of the object at hand, or a call that creates an allowed value.
Parentheses do not count, and neither do comments.
-/

set_option autoImplicit false

namespace RouteDoc

open Code

/-- What an expression says about its value. -/
inductive Shape where
  /-- There is no expression. -/
  | empty
  /-- A list of elements. -/
  | list (items : List Shape)
  /-- A string literal of this value. -/
  | literal (value : String)
  /-- A property of the object at hand. -/
  | property (name : String)
  /-- The result of a method of the object at hand. -/
  | method (name : String)
  /-- The result of a method of a class. -/
  | classCall (className method : String) (args : List Shape)
  /-- Another expression, by the word for its kind. -/
  | other (kind : String)
deriving Repr, Inhabited

namespace Shape

/-- A text for a shape. -/
def display : Shape → String
  | empty => "empty"
  | list items => "list[" ++ String.ofList (Number.decimalText items.length) ++ "]"
  | literal value => "'" ++ value ++ "'"
  | property name => "$this->" ++ name
  | method name => "$this->" ++ name ++ "()"
  | classCall className m _ => className ++ "::" ++ m ++ "()"
  | other kind => "<" ++ kind ++ ">"

/-- The value of a string literal. -/
def literal? : Shape → Option String
  | literal value => some value
  | _ => none

/-- The name of the member that is accessed on the object at hand. -/
def ownMember? (t : Code.Tree) : Option String :=
  match t.inRole? .object, t.inRole? .name with
  | some o, some n =>
    if o.kind = .variableName ∧ o.text = "$this" ∧ n.kind = .name then some n.text else none
  | _, _ => none

/-- The class and the method of a call on a class that is named. -/
def classMethod? (t : Code.Tree) : Option (String × String) :=
  match t.inRole? .scope, t.inRole? .name with
  | some s, some n =>
    if s.kind = .name ∨ s.kind = .qualifiedName then some (s.text, n.text) else none
  | _, _ => none

/-- Whether a node counts as a value among its siblings. -/
def counts (l : Label) : Bool :=
  l.kind != .token && l.kind != .comment

mutual
/-- The shape of an expression. -/
def ofTree : Code.Tree → Shape
  | .node l cs =>
    match l.kind with
    | .arrayCreationExpression => list (elements cs)
    | .string | .encapsedString =>
      ((Code.Tree.node l cs).stringValue?.map literal).getD (other l.kind.word)
    | .memberAccessExpression | .nullsafeMemberAccessExpression =>
      ((ownMember? (.node l cs)).map property).getD (other l.kind.word)
    | .memberCallExpression | .nullsafeMemberCallExpression =>
      ((ownMember? (.node l cs)).map method).getD (other l.kind.word)
    | .scopedCallExpression =>
      match classMethod? (.node l cs) with
      | some (className, m) => classCall className m (argumentsAmong cs)
      | none => other l.kind.word
    | .parenthesizedExpression => lastAmong empty cs
    | k => other k.word
/-- The shape of the last of the nodes that counts, or `default` if none does. -/
def lastAmong (default : Shape) : List Code.Tree → Shape
  | [] => default
  | .node l cs :: ts => lastAmong (if counts l then ofTree (.node l cs) else default) ts
/-- The shapes of the elements among the children of a list. -/
def elements : List Code.Tree → List Shape
  | [] => []
  | .node l cs :: ts =>
    if l.kind = .arrayElementInitializer then lastAmong empty cs :: elements ts else elements ts
/-- The shapes of the arguments among the children of a call. -/
def argumentsAmong : List Code.Tree → List Shape
  | [] => []
  | .node l cs :: ts => if l.role = some .arguments then passed cs else argumentsAmong ts
/-- The shapes of what is passed, among the children of the arguments. -/
def passed : List Code.Tree → List Shape
  | [] => []
  | .node l cs :: ts =>
    if counts l then
      (if l.kind = .argument then lastAmong empty cs else other l.kind.word) :: passed ts
    else passed ts
end

/-- The shape of an expression that may be absent. -/
def ofOption (t : Option Code.Tree) : Shape :=
  (t.map ofTree).getD empty

/-- The shapes of the arguments of a call. -/
def argumentsOf (call : Code.Tree) : List Shape :=
  argumentsAmong call.children

end Shape

end RouteDoc
