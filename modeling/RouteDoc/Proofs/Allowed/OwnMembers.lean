import RouteDoc.Allowed.Basic
import RouteDoc.Proofs.Documenter.Names

/-!
# Members of the class at hand

A handler may refer to a property or a method of its own class. What such a reference gives is read
off a declaration of that name in the source of the class, and the search for it goes through the
whole source: it ends at the first declaration of the name, whichever class makes it. This module
says when that is the declaration in the body of the class itself, and shows a source where it is
not.

## Main statements

* `find?_preorder_of_ownFirst`: where the declarations in the body of a class come first among those
  of a name, the first declaration of the source is the first in that body.
* `resolve_ownMember`: then a reference to the member gives what the class itself declares.
* `resolve_memberOfOther`: else it may give what another class declares.
-/

set_option autoImplicit false

namespace RouteDoc

open Code ParsedSource

/-! ## The declarations of a class -/

namespace ParsedSource

/-- The members in the body of a class. -/
def membersOf (declaration : Code.Tree) : List Code.Tree :=
  ((declaration.inRole? .body).map Tree.children).getD []

/-- The properties in the body of a class. One declaration may hold several of them. -/
def propertiesOf (declaration : Code.Tree) : List Code.Tree :=
  ((membersOf declaration).filter (·.kind == .propertyDeclaration)).flatMap Tree.children

/-- Among the nodes of a source that `p` holds of, those in a list that belongs to a class come
first: there are none before the class, and inside it they stand in front of all others. -/
structure OwnFirst (u : ParsedSource) (className : String) (declaration : Cursor)
    (own : List Code.Tree) (p : Code.Tree → Bool) : Prop where
  /-- There are none before the class. -/
  before : ∀ t ∈ u.tree.preorder.takeWhile (! isClass (unqualified className) ·), p t = false
  /-- Inside the class those of its own come first. -/
  inside : own.filter p <+: declaration.focus.preorder.filter p

/-- Where the declarations of a class come first, the first declaration of the source is the first
of the class. -/
theorem find?_preorder_of_ownFirst {u : ParsedSource} {className : String} {declaration : Cursor}
    {own : List Code.Tree} {p : Code.Tree → Bool} {t : Code.Tree}
    (declared : u.class? className = some declaration)
    (first : u.OwnFirst className declaration own p) (found : own.find? p = some t) :
    u.tree.preorder.find? p = some t := by
  have skipped : (u.tree.preorder.takeWhile (! isClass (unqualified className) ·)).find? p = none :=
    List.find?_eq_none.mpr fun x mem => by simp [first.before x mem]
  have inside : declaration.focus.preorder.find? p = some t := by
    obtain ⟨others, filtered⟩ := first.inside
    rw [← List.head?_filter, ← filtered, List.head?_append, List.head?_filter, found,
      Option.some_or]
  rw [Tree.preorder_of_locate? declared, List.find?_append, skipped, Option.none_or,
    List.find?_append, inside, Option.some_or]

end ParsedSource

/-! ## References to members -/

/-- **A reference to a member gives what its own class declares,** provided that the declarations of
that class come first among those of the name: no class before it declares such a member, and none
inside it does so ahead of its own body. What is declared behind does not matter. -/
theorem Allowed.resolve_ownMember {load : Loader} {u : ParsedSource} {className : String}
    {declaration : Cursor} (loaded : load className = .ok u)
    (declared : u.class? className = some declaration) {call : BuilderCall}
    (owned : call.owner = className) (name : String) (more : List Shape) :
    (∀ t, call.arguments = .property name :: more →
      (propertiesOf declaration.focus).find? (isProperty name) = some t →
      u.OwnFirst className declaration (propertiesOf declaration.focus) (isProperty name) →
      resolve load call = ofDefault (defaultOf t)) ∧
    (∀ t, call.arguments = .method name :: more →
      (membersOf declaration.focus).find? (isMethod name) = some t →
      u.OwnFirst className declaration (membersOf declaration.focus) (isMethod name) →
      resolve load call = ofReturn (returnOf t)) := by
  refine ⟨fun t passed found first => ?_, fun t passed found first => ?_⟩
  · have only := find?_preorder_of_ownFirst declared first found
    simp only [resolve, passed, ofProperty, owned, loaded, property?_eq, only]
    rfl
  · have only := find?_preorder_of_ownFirst declared first found
    simp only [resolve, passed, ofMethod, owned, loaded, declaredMethod?_eq, only]
    rfl

namespace Sample

/-- A class with one property that lists names of values. -/
def classWith (name value : String) : Tree :=
  node .classDeclaration none "" [
    node .name (some .name) name [],
    node .memberList (some .body) "" [
      node .propertyDeclaration none "" [
        node .propertyElement none "" [
          node .variableName (some .name) "$names" [],
          node .arrayCreationExpression (some .default) "" [
            node .arrayElementInitializer none "" [node .string none value []]]]]]]

/-- A source in which a class stands before another one with a property of the same name. -/
def twoClasses : ParsedSource where
  label := "two.php"
  source := ""
  tree := node .program none "" [classWith "Posts" "'own'", classWith "Users" "'other'"]

/-- A loader that finds this source for every class. -/
def findsTwoClasses : Loader := fun _ => .ok twoClasses

/-- A call in the first class that refers to its property. -/
def ownCall : BuilderCall :=
  ⟨.filter, "App\\Posts", [.property "names"]⟩

/-- The class behind does not matter. -/
theorem resolve_ownMember_of_first : ∃ declaration,
    twoClasses.class? "App\\Posts" = some declaration ∧
    (propertiesOf declaration.focus).find? (isProperty "names") =
      (propertiesOf (classWith "Posts" "'own'")).head? ∧
    twoClasses.OwnFirst "App\\Posts" declaration (propertiesOf declaration.focus)
      (isProperty "names") ∧
    Allowed.resolve findsTwoClasses ownCall = [.name "own"] := by
  have located : (twoClasses.class? "App\\Posts").map Cursor.focus =
      some (classWith "Posts" "'own'") := by
    rw [class?, ← Tree.firstWhere?, Tree.firstWhere?_eq]
    rfl
  obtain ⟨declaration, declared, focus⟩ := Option.map_eq_some_iff.mp located
  have found : (propertiesOf declaration.focus).find? (isProperty "names") =
      (propertiesOf (classWith "Posts" "'own'")).head? := by
    rw [focus]
    rfl
  have first : twoClasses.OwnFirst "App\\Posts" declaration (propertiesOf declaration.focus)
      (isProperty "names") := by
    refine ⟨?_, ?_⟩
    · have none_before : (twoClasses.tree.preorder.takeWhile
          (! isClass (unqualified "App\\Posts") ·)).all (! isProperty "names" ·) = true := by
        decide +kernel
      exact fun t mem => by simpa using List.all_eq_true.mp none_before t mem
    · rw [focus]
      exact ⟨[], rfl⟩
  have loaded : findsTwoClasses "App\\Posts" = .ok twoClasses := rfl
  have owned : ownCall.owner = "App\\Posts" := rfl
  refine ⟨declaration, declared, found, first, ?_⟩
  exact (Allowed.resolve_ownMember loaded declared owned "names" []).1 _ rfl found first

/-- A class with a handler, behind a class that has a property of the same name. -/
def shadowed : ParsedSource :=
  .parse "" ("<?php class A\x7bpublic $f=['other'];\x7d " ++
    "class C\x7bpublic $f=['own'];function h()\x7b$q->allowedFilters($this->f);\x7d\x7d")

/-- The property that the class itself declares lists one value, and the handler is documented with
another one, which the class before lists. -/
theorem resolve_memberOfOther :
    ((shadowed.class? "C").bind fun c => (propertiesOf c.focus).find? (isProperty "f")).map
        (fun t => Allowed.ofDefault (defaultOf t)) = some [.name "own"] ∧
    ((shadowed.handler? (some "C") "h").bind fun d => BuilderCall.find? d.focus .filter "C").map
        (fun call => (call.arguments.map Shape.display, Allowed.resolve (fun _ => .ok shadowed) call))
      = some (["$this->f"], [.name "other"]) := by
  decide +kernel

end Sample

end RouteDoc
