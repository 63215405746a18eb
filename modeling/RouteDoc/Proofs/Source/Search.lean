import RouteDoc.Source.Parsed

/-!
# What is found in a source

The questions that a parsed source answers are searches with a cursor. Here each of them is put in
terms of the nodes of a tree in preorder: the class by a search of the whole tree, the handler by a
search of the class or, where the source does not declare it, of the whole tree, a builder call by a
search of the handler, and a property or a method that a handler refers to by a search of the whole
tree again.

## Main statements

* `Cursor.rest_of_search`, `Tree.preorder_of_locate?`: a search passes nothing but nodes without the
  property, and ahead of it lie the nodes of what it finds.
* `property?_eq`, `declaredMethod?_eq`: a member is the first of its name in the source.
-/

set_option autoImplicit false

namespace RouteDoc

open Code

/-! ## What a search passes -/

/-- Up to the node that a search finds there are only nodes without the property; behind them comes
what the cursor there has ahead of it. -/
theorem Code.Cursor.rest_of_search {p : Tree → Bool} {c d : Cursor} (found : c.search p = some d) :
    c.rest = c.rest.takeWhile (! p ·) ++ d.rest := by
  induction c using Cursor.search_induction with
  | found cursor has =>
    rw [Cursor.search_of_has has] at found
    cases found
    rw [Cursor.rest_next?, List.takeWhile_cons_of_neg (by simp [has])]
    rfl
  | step cursor next hasNot step ih =>
    rw [Cursor.search_of_not hasNot, step] at found
    rw [Cursor.rest_next?, step, List.takeWhile_cons_of_pos (by simp [hasNot])]
    exact congrArg (_ :: ·) (ih found)
  | stuck cursor hasNot stuck =>
    rw [Cursor.search_of_not hasNot, stuck] at found
    cases found

/-- The nodes of a tree are those up to the first that has a property, the nodes of that one, and
the rest. -/
theorem Code.Tree.preorder_of_locate? {t : Tree} {p : Tree → Bool} {d : Cursor}
    (found : t.locate? p = some d) :
    t.preorder = t.preorder.takeWhile (! p ·) ++ (d.focus.preorder ++ Cursor.behind d.path) := by
  have whole : (Cursor.ofTree t).rest = t.preorder := List.append_nil _
  rw [← whole]
  exact Cursor.rest_of_search found

/-! ## Classes, handlers and calls -/

/-- The class in which handlers are looked for is the first of that name, if there is one. -/
theorem ParsedSource.scope_some (u : ParsedSource) (className : String) :
    u.scope (some className) =
      (u.tree.preorder.find? (isClass (unqualified className))).getD u.tree := by
  rw [← Tree.firstWhere?_eq]
  rfl

/-- A handler is the first method of that name in the class. -/
theorem ParsedSource.focus_handler? (u : ParsedSource) (className method : String) :
    (u.handler? (some className) method).map Cursor.focus =
      (u.scope (some className)).preorder.find? (isMethod method) :=
  Tree.firstWhere?_eq _ _

/-- A builder call is the first call of the capability's method in the handler. -/
theorem BuilderCall.find?_eq (handler : Code.Tree) (c : Capability) (owner : String) :
    find? handler c owner =
      (handler.preorder.find? (isCallOf c.builderMethod)).map fun call =>
        ⟨c, owner, Shape.argumentsOf call⟩ := by
  rw [find?, Tree.firstWhere?_eq]

/-! ## Members -/

namespace ParsedSource

/-- The shape of the default that a property declares. -/
def defaultOf (property : Code.Tree) : Shape :=
  Shape.ofOption (propertyDefault? property)

/-- The shape of what a method first returns, if it has a return statement. -/
def returnOf (method : Code.Tree) : Option Shape :=
  ((method.inRole? .body).bind firstReturn?).map fun t => Shape.ofOption t.lastPart?

/-- What is known of a property is read off the first declaration of that name. -/
theorem property?_eq (u : ParsedSource) (name : String) :
    u.property? name =
      (u.tree.preorder.find? (isProperty name)).map fun t => ⟨name, defaultOf t⟩ := by
  rw [property?, Tree.firstWhere?_eq]
  rfl

/-- What is known of a method is read off the first declaration of that name. -/
theorem declaredMethod?_eq (u : ParsedSource) (name : String) :
    u.declaredMethod? name =
      (u.tree.preorder.find? (isMethod name)).map fun t => ⟨name, returnOf t⟩ := by
  rw [← Tree.firstWhere?_eq, Tree.firstWhere?, Option.map_map]
  rfl

end ParsedSource

end RouteDoc
