import Mathlib.Data.List.Find
import Mathlib.Data.List.TakeWhile
import RouteDoc.Proofs.Documenter.Names
import RouteDoc.Proofs.Source.Search

/-!
# Classes and namespaces

The full name of a class has the namespace in front that is in force where the class is declared. A
namespace definition with a body is in force in the body, and one without from there on. What a
source reports as the names of its classes has the namespace of its first definition in front
throughout, and a class is looked for by the last part of its name alone. This module says which of
the reported names are the full ones, and when looking for them finds the classes that they name.

## Main statements

* `classNames_eq_fullNames_iff`: the reported names are the full ones just if every class is
  declared in the namespace that the first definition names, and there a full name leads to the
  first class that has it.
* `classNames_twoSpaces`: in a source with two namespaces, it may lead to another class, and a class
  may have another name than is reported.
-/

set_option autoImplicit false

namespace RouteDoc.ParsedSource

open Code Tree

/-- Whether a node is a namespace definition. -/
def isNamespace (t : Code.Tree) : Bool :=
  t.kind == .namespaceDefinition

/-- The namespace that a definition names. Without a name it is the global one. -/
def spaceOf (definition : Code.Tree) : String :=
  ((definition.textInRole? .name).map trimBackslashes).getD ""

/-- The namespace in force in a node, if `space` is so around it. -/
def spaceWithin (space : String) (t : Code.Tree) : String :=
  if isNamespace t && (t.inRole? .body).isSome then spaceOf t else space

/-- The namespace in force behind a node, if `space` is so in front of it. -/
def spaceBehind (space : String) (t : Code.Tree) : String :=
  if isNamespace t && (t.inRole? .body).isNone then spaceOf t else space

/-- A name with a namespace in front. -/
def qualify (space name : String) : String :=
  if space.isEmpty then name else space ++ "\\" ++ name

/-- A class declaration with the namespace in force there. -/
structure PlacedClass where
  space : String
  declaration : Code.Tree

/-- The name that a class is declared by. -/
def PlacedClass.name? (c : PlacedClass) : Option String :=
  c.declaration.textInRole? .name

/-- The name of a class with the namespace in front that is in force. -/
def PlacedClass.fullName? (c : PlacedClass) : Option String :=
  c.name?.map (qualify c.space)

mutual
/-- The classes that a tree declares, in order, where `space` is in force around it. -/
def classesIn (space : String) : Code.Tree → List PlacedClass
  | .node l cs =>
    let below := classesInAll (spaceWithin space (.node l cs)) cs
    if l.kind == .classDeclaration then ⟨space, .node l cs⟩ :: below else below
/-- The classes that trees declare, in order, where `space` is in force in front of them. -/
def classesInAll (space : String) : List Code.Tree → List PlacedClass
  | [] => []
  | t :: ts => classesIn space t ++ classesInAll (spaceBehind space t) ts
end

/-- The classes that a source declares, in order. It begins in the global namespace. -/
def classes (u : ParsedSource) : List PlacedClass :=
  classesIn "" u.tree

/-- The full names of the classes that a source declares, in order. -/
def fullNames (u : ParsedSource) : List String :=
  u.classes.filterMap PlacedClass.fullName?

/-! ## Names -/

theorem qualify_of_empty (name : String) : qualify "" name = name := rfl

/-- In a namespace with a name there is a backslash in between. -/
theorem qualify_of_ne {space : String} (named : space ≠ "") (name : String) :
    qualify space name = space ++ "\\" ++ name := by
  simp [qualify, named]

/-- In one namespace the full names differ if the names do. -/
theorem qualify_right_inj {space name other : String} :
    qualify space name = qualify space other ↔ name = other := by
  by_cases named : space = ""
  · rw [named, qualify_of_empty, qualify_of_empty]
  · rw [qualify_of_ne named, qualify_of_ne named]
    exact String.append_right_inj _

/-- A namespace with a name makes another name. -/
theorem qualify_ne_self {space : String} (named : space ≠ "") (name : String) :
    qualify space name ≠ name := by
  rw [qualify_of_ne named]
  intro same
  -- The longer name has the namespace and a backslash more.
  have lengths := congrArg String.length same
  simp only [String.length_append] at lengths
  have : "\\".length = 1 := rfl
  omega

/-- One name has different full names in different namespaces. -/
theorem qualify_left_inj {space other name : String} :
    qualify space name = qualify other name ↔ space = other := by
  refine ⟨fun same => ?_, fun same => same ▸ rfl⟩
  by_cases named : space = "" <;> by_cases otherNamed : other = ""
  · rw [named, otherNamed]
  · rw [named, qualify_of_empty] at same
    exact absurd same.symm (qualify_ne_self otherNamed name)
  · rw [otherNamed, qualify_of_empty] at same
    exact absurd same (qualify_ne_self named name)
  · rw [qualify_of_ne named, qualify_of_ne otherNamed] at same
    exact String.append_left_inj _ |>.mp (String.append_left_inj _ |>.mp same)

/-- The last part of a name in a namespace is the name. -/
theorem unqualified_qualify {space name : String} (plain : '\\' ∉ name.toList) :
    unqualified (qualify space name) = name := by
  have kept : ∀ c ∈ name.toList.reverse, (c != '\\') = true := by
    intro c mem
    simp only [bne_iff_ne]
    rintro rfl
    exact plain (List.mem_reverse.mp mem)
  by_cases named : space = ""
  · rw [named, qualify_of_empty, unqualified, List.takeWhile_eq_self_iff.mpr kept]
    simp
  · rw [qualify_of_ne named, unqualified, String.toList_append, List.reverse_append,
      List.takeWhile_append_of_pos kept]
    simp

/-! ## Declarations -/

/-- Whether a node declares a class. -/
def declaresClass (t : Code.Tree) : Bool :=
  t.kind == .classDeclaration

mutual
/-- The declarations of classes are those among all nodes, whatever namespace is in force. -/
theorem map_declaration_classesIn :
    ∀ (space : String) (t : Code.Tree),
      (classesIn space t).map PlacedClass.declaration = t.preorder.filter declaresClass
  | space, .node l cs => by
    have below := map_declaration_classesInAll (spaceWithin space (.node l cs)) cs
    rw [classesIn, preorder, List.filter_cons, ← below]
    show (if declaresClass (.node l cs) = true then _ else _ : List PlacedClass).map _ = _
    split <;> rfl
theorem map_declaration_classesInAll :
    ∀ (space : String) (ts : List Code.Tree),
      (classesInAll space ts).map PlacedClass.declaration =
        (preorderAll ts).filter declaresClass
  | _, [] => rfl
  | space, t :: ts => by
    rw [classesInAll, preorderAll, List.map_append, List.filter_append,
      map_declaration_classesIn space t, map_declaration_classesInAll _ ts]
end

/-! ## Reported names -/

/-- Every class with a name is declared in the namespace that the first definition names. -/
def OneSpace (u : ParsedSource) : Prop :=
  ∀ c ∈ u.classes, c.name?.isSome → c.space = u.namespaceName

/-- No class has a backslash in the name of its declaration. -/
def PlainNames (u : ParsedSource) : Prop :=
  ∀ c ∈ u.classes, ∀ name, c.name? = some name → '\\' ∉ name.toList

/-- The reported names are those of the declared classes, all in one namespace. -/
theorem classNames_eq (u : ParsedSource) :
    u.classNames = u.classes.filterMap fun c => c.name?.map (qualify u.namespaceName) := by
  have declarations := map_declaration_classesIn "" u.tree
  show ((u.tree.allWhere declaresClass).filterMap (·.textInRole? .name)).map
    (qualify u.namespaceName) = _
  rw [allWhere_eq, ← declarations, List.filterMap_map, List.map_filterMap]
  rfl

/-- Classes have one namespace in front of their names just if it is in force at each of them. -/
theorem filterMap_qualify_eq_iff (space : String) (cs : List PlacedClass) :
    (cs.filterMap fun c => c.name?.map (qualify space)) = cs.filterMap PlacedClass.fullName? ↔
      ∀ c ∈ cs, c.name?.isSome → c.space = space := by
  induction cs with
  | nil => simp
  | cons c cs ih =>
    rw [List.forall_mem_cons, ← ih]
    cases named : c.name? with
    | none => simp [PlacedClass.fullName?, named]
    | some name =>
      have full : c.fullName? = some (qualify c.space name) := by
        rw [PlacedClass.fullName?, named, Option.map_some]
      rw [List.filterMap_cons_some (by rw [named, Option.map_some]), List.filterMap_cons_some full,
        List.cons.injEq, qualify_left_inj]
      simp only [Option.isSome_some, forall_const, eq_comm]

/-- Where all classes are declared in one namespace, a class has a full name just if it has the name
of which that is the full one. -/
theorem fullName?_beq {u : ParsedSource} (one : u.OneSpace) (name : String) {c : PlacedClass}
    (mem : c ∈ u.classes) :
    (c.fullName? == some (qualify u.namespaceName name)) = (c.name? == some name) := by
  cases named : c.name? with
  | none => simp [PlacedClass.fullName?, named]
  | some other =>
    have inForce := one c mem (by rw [named, Option.isSome_some])
    rw [Bool.eq_iff_iff]
    simp [PlacedClass.fullName?, named, inForce, qualify_right_inj]

/-- A class is looked for among the declared classes by the last part of its name. -/
theorem class?_eq (u : ParsedSource) (className : String) :
    (u.class? className).map Cursor.focus =
      (u.classes.find? (·.name? == some (unqualified className))).map
        PlacedClass.declaration := by
  have declarations := map_declaration_classesIn "" u.tree
  show u.tree.firstWhere? (isClass (unqualified className)) = _
  rw [Tree.firstWhere?_eq]
  have byName : (u.tree.preorder.filter declaresClass).find?
      (·.textInRole? .name == some (unqualified className)) =
        u.tree.preorder.find? (isClass (unqualified className)) := by
    rw [List.find?_filter]
    refine List.find?_congr fun t _ => ?_
    rw [Bool.eq_iff_iff]
    simp [isClass, declaresClass]
  rw [← byName, ← declarations, List.find?_map]
  rfl

/-- **The reported names are the full names just if all classes are declared in the namespace that
the first definition names.** There, where no declaration has a backslash in its name, each of them
leads to the first class that has it. -/
theorem classNames_eq_fullNames_iff (u : ParsedSource) :
    (u.classNames = u.fullNames ↔ u.OneSpace) ∧
    (u.OneSpace → u.PlainNames → ∀ fullName ∈ u.fullNames, ∃ c declaration,
      u.classes.find? (·.fullName? == some fullName) = some c ∧
      u.class? fullName = some declaration ∧ declaration.focus = c.declaration) := by
  refine ⟨?_, fun one plain fullName mem => ?_⟩
  · rw [classNames_eq, fullNames, filterMap_qualify_eq_iff]
    rfl
  · obtain ⟨member, isMember, full⟩ := List.mem_filterMap.mp mem
    obtain ⟨name, named, rfl⟩ := Option.map_eq_some_iff.mp full
    rw [one member isMember (by rw [named, Option.isSome_some])] at full ⊢
    have same : u.classes.find? (·.fullName? == some (qualify u.namespaceName name)) =
        u.classes.find? (·.name? == some name) :=
      List.find?_congr fun c => fullName?_beq one name
    -- Among classes of one namespace, the first with the full name is the first with the last part.
    obtain ⟨c, first⟩ : ∃ c, u.classes.find?
        (·.fullName? == some (qualify u.namespaceName name)) = some c :=
      Option.isSome_iff_exists.mp (List.find?_isSome.mpr ⟨member, isMember, by simp [full]⟩)
    have looked := class?_eq u (qualify u.namespaceName name)
    rw [unqualified_qualify (plain member isMember name named), ← same, first,
      Option.map_some] at looked
    obtain ⟨declaration, found, focus⟩ := Option.map_eq_some_iff.mp looked
    exact ⟨c, declaration, first, found, focus⟩

end RouteDoc.ParsedSource

namespace RouteDoc.Sample

open Code ParsedSource

/-- A source with two classes in one namespace. -/
def oneSpace : ParsedSource :=
  .parse "" "<?php namespace App\\Http; class A\x7b\x7d class B\x7b\x7d"

/-- The full name of each leads to it. -/
theorem classNames_oneSpace :
    oneSpace.OneSpace ∧ oneSpace.PlainNames ∧
    oneSpace.classNames = ["App\\Http\\A", "App\\Http\\B"] ∧
    ∃ declaration, oneSpace.class? "App\\Http\\B" = some declaration ∧
      declaration.focus.text = "class B\x7b\x7d" := by
  have one : oneSpace.OneSpace := by
    unfold OneSpace
    decide +kernel
  have plain : oneSpace.PlainNames := by
    have each : oneSpace.classes.all (fun c => c.name?.all (! ·.toList.contains '\\')) = true := by
      decide +kernel
    intro c mem name named
    have here := List.all_eq_true.mp each c mem
    simpa [named] using here
  have full : oneSpace.fullNames = ["App\\Http\\A", "App\\Http\\B"] := by decide +kernel
  obtain ⟨reported, leads⟩ := classNames_eq_fullNames_iff oneSpace
  refine ⟨one, plain, (reported.mpr one).trans full, ?_⟩
  obtain ⟨c, declaration, first, found, focus⟩ :=
    leads one plain "App\\Http\\B" (by rw [full]; decide)
  refine ⟨declaration, found, ?_⟩
  have text : (oneSpace.classes.find? (·.fullName? == some "App\\Http\\B")).map
      (·.declaration.text) = some "class B\x7b\x7d" := by
    decide +kernel
  rw [focus]
  rw [first] at text
  exact Option.some.inj text

/-- A source with a class of one name in each of two namespaces. -/
def twoSpaces : ParsedSource :=
  .parse "" "<?php namespace A; class C\x7b\x7d namespace B; class C\x7b\x7d"

/-- The second class is reported under the name of the first, and its own name leads to the first
too. -/
theorem classNames_twoSpaces :
    twoSpaces.fullNames = ["A\\C", "B\\C"] ∧ twoSpaces.classNames = ["A\\C", "A\\C"] ∧
    (twoSpaces.classes.find? (·.fullName? == some "B\\C")).map (·.declaration.start) = some 42 ∧
    (twoSpaces.class? "B\\C").map (·.focus.start) = some 19 := by
  decide +kernel

end RouteDoc.Sample
