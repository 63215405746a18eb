import RouteDoc.Proofs.Allowed.OwnMembers
import RouteDoc.Proofs.Code.Places

/-!
# Handlers of a class

A handler is looked for in the declaration of its class. The search goes through everything in
there, down to the classes that expressions in the bodies of methods create, so that a method of
such a class may come before the one that the class itself declares. This module says exactly when
it does, and shows a class where the wrong method is taken for the handler.

## Main statements

* `handler?_eq_member_iff`: the search ends at a method of the class itself just if none of that
  name stands in front of it in the class, and it finds nothing just if there is none in the class.
* `handler?_nested`: else it may end at a method of a class that an earlier member creates.
-/

set_option autoImplicit false

namespace RouteDoc

open Code

namespace ParsedSource

/-- A place in the body of a class: right below the node that is the body of the declaration. -/
def IsMember (declaration : Code.Tree) (c : Cursor) : Prop :=
  ∃ body, c.parent? = some body ∧ body.parent? = some (.ofTree declaration) ∧
    declaration.inRole? .body = some body.focus

/-- A member stands in the declaration of its class. -/
theorem IsMember.root {declaration : Code.Tree} {c : Cursor} (member : IsMember declaration c) :
    c.root = declaration := by
  obtain ⟨body, inBody, inClass, -⟩ := member
  rw [← Cursor.root_of_parent inBody, ← Cursor.root_of_parent inClass, Cursor.root_ofTree]

/-- What stands in these places are the members of the class. -/
theorem exists_isMember_iff {declaration t : Code.Tree} :
    (∃ c, IsMember declaration c ∧ c.focus = t) ↔ t ∈ membersOf declaration := by
  constructor
  · rintro ⟨⟨_, path⟩, ⟨body, inBody, -, isBody⟩, rfl⟩
    cases path with
    | nil => cases inBody
    | cons f up =>
      cases inBody
      simp [membersOf, isBody]
  · intro mem
    cases isBody : declaration.inRole? .body with
    | none => simp [membersOf, isBody] at mem
    | some body =>
      obtain ⟨l, cs⟩ := declaration
      obtain ⟨bodyLabel, members⟩ := body
      obtain ⟨-, before, behind, rfl, -⟩ := List.find?_eq_some_iff_append.mp isBody
      have inBody : t ∈ members := by simpa [membersOf, isBody] using mem
      obtain ⟨left, right, rfl⟩ := List.append_of_mem inBody
      refine ⟨⟨t, [⟨bodyLabel, left.reverse, right⟩, ⟨l, before.reverse, behind⟩]⟩,
        ⟨_, rfl, ?_, ?_⟩, rfl⟩
      · simp [Cursor.parent?, Cursor.ofTree]
      · simpa using isBody

/-- Where the source declares a class, its handlers are looked for in that declaration. -/
theorem handler?_of_declared {u : ParsedSource} {className : String} {declaration : Cursor}
    (declared : u.class? className = some declaration) (method : String) :
    u.handler? (some className) method = declaration.focus.locate? (isMethod method) := by
  simp [handler?, scope, declared]

/-- **A class's own method is its handler just if no method of that name stands in front of it.**
What stands in front are the members before it with everything nested in them. Where the class and
all that is nested in it have no method of the name, and only there, there is no handler. -/
theorem handler?_eq_member_iff {u : ParsedSource} {className : String} {declaration : Cursor}
    (declared : u.class? className = some declaration) (method : String) :
    (∀ member, IsMember declaration.focus member → isMethod method member.focus = true →
      (u.handler? (some className) method = some member ↔
        ∀ t ∈ member.passed, isMethod method t = false)) ∧
    (u.handler? (some className) method = none ↔
      ∀ t ∈ declaration.focus.preorder, isMethod method t = false) := by
  rw [handler?_of_declared declared]
  refine ⟨fun member own has => ?_, Tree.locate?_eq_none_iff⟩
  rw [Tree.locate?_eq_some_iff]
  constructor
  · rintro ⟨-, -, inFront⟩
    exact inFront
  · intro inFront
    exact ⟨own.root, has, inFront⟩

end ParsedSource

namespace Sample

open ParsedSource

/-- A method whose body creates an object of a class with one method. -/
def creating (name nested : String) : Tree :=
  node .methodDeclaration none "" [
    node .name (some .name) name [],
    node .block (some .body) "" [
      node .objectCreationExpression none "" [
        node .memberList none "" [
          node .methodDeclaration none "" [node .name (some .name) nested []]]]]]

/-- A method with nothing in its body. -/
def plain (name : String) : Tree :=
  node .methodDeclaration none "" [
    node .name (some .name) name [],
    node .block (some .body) "" []]

/-- A class whose method stands between methods that create objects with methods. -/
def between : Tree :=
  node .classDeclaration none "" [
    node .name (some .name) "Posts" [],
    node .memberList (some .body) "" [
      creating "first" "other", plain "list", creating "last" "list"]]

/-- A source with this class. -/
def betweenSource : ParsedSource where
  label := "posts.php"
  source := ""
  tree := node .program none "" [between]

/-- The place of the class's own method. -/
def betweenPlace : Cursor where
  focus := plain "list"
  path := [
    ⟨⟨.memberList, some .body, 0, 0, ""⟩, [creating "first" "other"], [creating "last" "list"]⟩,
    ⟨⟨.classDeclaration, none, 0, 0, ""⟩, [node .name (some .name) "Posts" []], []⟩]

/-- A method behind, or one of another name in front, does not matter. -/
theorem handler?_eq_member_of_between : ∃ declaration,
    betweenSource.class? "App\\Posts" = some declaration ∧
    IsMember declaration.focus betweenPlace ∧ isMethod "list" betweenPlace.focus = true ∧
    betweenSource.handler? (some "App\\Posts") "list" = some betweenPlace := by
  have located : (betweenSource.class? "App\\Posts").map Cursor.focus = some between := by
    rw [class?, ← Tree.firstWhere?, Tree.firstWhere?_eq]
    rfl
  obtain ⟨declaration, declared, focus⟩ := Option.map_eq_some_iff.mp located
  have own : IsMember declaration.focus betweenPlace := by
    rw [focus]
    exact ⟨_, rfl, rfl, rfl⟩
  have has : isMethod "list" betweenPlace.focus = true := by decide
  have inFront : betweenPlace.passed.all (! isMethod "list" ·) = true := by decide
  refine ⟨declaration, declared, own, has, ?_⟩
  refine ((handler?_eq_member_iff declared "list").1 betweenPlace own has).mpr fun t mem => ?_
  simpa using List.all_eq_true.mp inFront t mem

/-- A class whose method stands behind one that creates an object with a method of that name. -/
def outranked : ParsedSource :=
  .parse "" ("<?php class C\x7bfunction a()\x7bnew class\x7bfunction m()\x7b\x7d\x7d;\x7d" ++
    "function m()\x7b\x7d\x7d")

/-- The class itself declares the method further behind than what is taken for its handler. -/
theorem handler?_nested :
    ((outranked.class? "C").bind fun c => (membersOf c.focus).find? (isMethod "m")).map
        Code.Tree.start = some 54 ∧
    (outranked.handler? (some "C") "m").map (·.focus.start) = some 37 := by
  decide +kernel

end Sample

end RouteDoc
