import RouteDoc.Proofs.Documenter.Names
import RouteDoc.Proofs.Source.Search

/-!
# What a method returns

A return statement belongs to the function in whose body it stands. A body may hold other functions,
closures and classes, and these hold return statements of their own; what a method returns is told
by those that are left. The search for the first return statement passes no such bounds, though.
This module says what it finds: it looks at the nodes of the body itself one by one, and into every
function or class among them on the way.

## Main statements

* `firstReturn?_eq`: the first return statement by the nodes of the body itself.
* `declaredMethod?_own`: where no function or class in front of it holds one, the first return
  statement of a method is its own first, or there is none.
* `declaredMethod?_nested`: else it may be that of a closure.
-/

set_option autoImplicit false

namespace RouteDoc.ParsedSource

open Code Tree

/-- Whether a node bounds what belongs to a body: a closure, a named function, or the members of a
class. -/
def bounds (t : Code.Tree) : Bool :=
  match t.kind with
  | .anonymousFunction | .arrowFunction | .memberList => true
  | .declaration => (t.inRole? .body).isSome
  | _ => false

mutual
/-- The nodes of a tree in preorder without those below a bound. -/
def ownNodes : Code.Tree → List Code.Tree
  | .node l cs => .node l cs :: if bounds (.node l cs) then [] else ownNodesAll cs
/-- The nodes of trees in preorder without those below a bound. -/
def ownNodesAll : List Code.Tree → List Code.Tree
  | [] => []
  | t :: ts => ownNodes t ++ ownNodesAll ts
end

/-- Whether a node is a return statement. -/
def isReturn (t : Code.Tree) : Bool :=
  t.kind == .returnStatement

/-- The first return statement that belongs to a body. -/
def ownReturn? (body : Code.Tree) : Option Code.Tree :=
  (ownNodes body).find? isReturn

/-! ## Searches across bounds -/

/-- What a search for a node gives at a node of the body itself: below a bound it goes on. -/
def foundAt (p : Code.Tree → Bool) (t : Code.Tree) : Option Code.Tree :=
  if bounds t then t.preorder.find? p else if p t then some t else none

mutual
/-- A search of a tree by the nodes of the tree itself. -/
theorem find?_preorder (p : Code.Tree → Bool) :
    ∀ t : Code.Tree, t.preorder.find? p = (ownNodes t).findSome? (foundAt p)
  | .node l cs => by
    rw [ownNodes, List.findSome?_cons, foundAt]
    cases bound : bounds (.node l cs) with
    | true =>
      simp only [if_true, List.findSome?_nil]
      cases (Code.Tree.node l cs).preorder.find? p <;> rfl
    | false =>
      simp only [Bool.false_eq_true, if_false, preorder, List.find?_cons]
      cases p (.node l cs) with
      | true => rfl
      | false => exact find?_preorderAll p cs
theorem find?_preorderAll (p : Code.Tree → Bool) :
    ∀ ts : List Code.Tree, (preorderAll ts).find? p = (ownNodesAll ts).findSome? (foundAt p)
  | [] => rfl
  | t :: ts => by
    rw [preorderAll, ownNodesAll, List.find?_append, List.findSome?_append, find?_preorder p t,
      find?_preorderAll p ts]
end

/-- Where no bound in front of the first node with a property has such a node below it, looking
below the bounds finds nothing else. -/
theorem findSome?_foundAt {p : Code.Tree → Bool} {ts : List Code.Tree}
    (silent : ∀ t ∈ ts.takeWhile (! p ·), bounds t = true → ∀ x ∈ t.preorder, p x = false) :
    ts.findSome? (foundAt p) = ts.find? p := by
  induction ts with
  | nil => rfl
  | cons t ts ih =>
    rw [List.findSome?_cons, List.find?_cons]
    cases has : p t with
    | true =>
      have here : foundAt p t = some t := by
        simp [foundAt, preorder_eq_cons, has]
      rw [here]
    | false =>
      rw [List.takeWhile_cons_of_pos (by simp [has])] at silent
      have here : foundAt p t = none := by
        cases bound : bounds t with
        | true => simpa [foundAt, bound] using silent t List.mem_cons_self bound
        | false => simp [foundAt, bound, has]
      rw [here]
      exact ih fun u mem => silent u (List.mem_cons_of_mem _ mem)

/-! ## Return statements -/

/-- The first return statement in a body, by the nodes of the body itself: the first among them that
is one, or that bounds one, decides. -/
theorem firstReturn?_eq (body : Code.Tree) :
    firstReturn? body = (ownNodes body).findSome? (foundAt isReturn) := by
  rw [← find?_preorder, firstReturn?, Tree.firstWhere?_eq]
  rfl

/-- In front of the first return statement of a body, no function or class in the body holds one. If
the body has no such statement, none does at all. -/
def NoneInFront (body : Code.Tree) : Prop :=
  ∀ t ∈ (ownNodes body).takeWhile (! isReturn ·), bounds t = true →
    ∀ x ∈ t.preorder, isReturn x = false

/-- **What is reported of a method is what it first returns itself,** or that it returns nothing,
provided that no function or class in front of that return statement holds another one. -/
theorem declaredMethod?_own {u : ParsedSource} {name : String} {declaration : Cursor}
    (found : u.method? name = some declaration)
    (silent : ∀ body, declaration.focus.inRole? .body = some body → NoneInFront body) :
    u.declaredMethod? name = some ⟨name,
      ((declaration.focus.inRole? .body).bind ownReturn?).map fun t =>
        Shape.ofOption t.lastPart?⟩ := by
  have same : (declaration.focus.inRole? .body).bind firstReturn? =
      (declaration.focus.inRole? .body).bind ownReturn? := by
    cases isBody : declaration.focus.inRole? .body with
    | none => rfl
    | some body =>
      show firstReturn? body = ownReturn? body
      rw [firstReturn?_eq, findSome?_foundAt (silent body isBody), ownReturn?]
  rw [declaredMethod?, found, Option.map_some, same]

end RouteDoc.ParsedSource

namespace RouteDoc.Sample

open Code ParsedSource

/-- A statement that returns a text. -/
def returnOf (text : String) : Tree :=
  node .returnStatement none "" [node .string none text []]

/-- A closure with these statements. -/
def closure (statements : List Tree) : Tree :=
  node .anonymousFunction none "" [node .block (some .body) "" statements]

/-- A source with a method that returns between two closures. -/
def closuresAround : ParsedSource where
  label := "posts.php"
  source := ""
  tree := node .program none "" [
    node .methodDeclaration none "" [
      node .name (some .name) "names" [],
      node .block (some .body) "" [
        closure [], returnOf "'own'", closure [returnOf "'other'"]]]]

/-- A closure behind, or one that returns nothing, does not matter. -/
theorem declaredMethod?_own_of_closures : ∃ declaration,
    closuresAround.method? "names" = some declaration ∧
    (∀ body, declaration.focus.inRole? .body = some body → NoneInFront body) ∧
    (closuresAround.declaredMethod? "names").map (·.returned.map Shape.display) =
      some (some "'own'") := by
  have located : (closuresAround.method? "names").map Cursor.focus =
      (closuresAround.tree.children).head? := by
    rw [method?, ← Tree.firstWhere?, Tree.firstWhere?_eq]
    rfl
  obtain ⟨declaration, found, focus⟩ := Option.map_eq_some_iff.mp located
  have silent : ∀ body, declaration.focus.inRole? .body = some body → NoneInFront body := by
    rw [focus]
    rintro body ⟨⟩
    have each : ((ownNodes (node .block (some .body) "" [
        closure [], returnOf "'own'", closure [returnOf "'other'"]])).takeWhile
          (! isReturn ·)).all (fun t => ! bounds t || t.preorder.all (! isReturn ·)) = true := by
      decide
    intro t mem bound x below
    have here := List.all_eq_true.mp each t mem
    simp only [bound, Bool.not_true, Bool.false_or] at here
    simpa using List.all_eq_true.mp here x below
  refine ⟨declaration, found, silent, ?_⟩
  rw [declaredMethod?_own found silent, focus]
  rfl

/-- A method that returns a list behind a closure that returns something else. -/
def closureFirst : ParsedSource :=
  .parse "" ("<?php class C\x7bfunction f()\x7b$g=function()\x7breturn 1;\x7d;" ++
    "return ['a'];\x7d\x7d")

/-- The method itself first returns a list with one value, and what is reported of it, which is what
the closure returns, gives none. -/
theorem declaredMethod?_nested :
    ((closureFirst.method? "f").bind fun c => ((c.focus.inRole? .body).bind ownReturn?).map
        fun t => Allowed.ofReturn (some (Shape.ofOption t.lastPart?))) = some [.name "a"] ∧
    (closureFirst.declaredMethod? "f").map (fun m => Allowed.ofReturn m.returned) = some [] := by
  decide +kernel

end RouteDoc.Sample
