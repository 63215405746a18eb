import Mathlib.Data.List.Nodup
import RouteDoc.Proofs.Code.Places

/-!
# Searches walk in preorder

A search starts at a node somewhere in a tree, and its cursor cannot leave that node: it moves down
before right and right before up, and asks of each node on its way whether that is the one. What it
asks may have effects, so that the order of the questions and their number matter.

The subtree at a place has its places too, and these are listed by recursion on the tree. They are
what the questions of a search go through, one after another, till one of them is answered with yes;
a search for all nodes asks all of them.

## Main statements

* `within_ahead`: from a node on its own, a cursor goes through the places of the subtree.
* `length_preorder`: there are as many of them as the subtree has nodes.
* `walk_preorder`: a search asks of these places in preorder, of each once and of no others, and ends
  at the first that it looks for.
-/

set_option autoImplicit false

namespace RouteDoc.Code

open RouteDoc.Code.Tree

universe u

mutual
/-- Preorder lists as many nodes as the tree has. -/
theorem Tree.length_preorder : ∀ t : Tree, t.preorder.length = t.size
  | .node l cs => by rw [preorder, size, List.length_cons, length_preorderAll cs]
theorem Tree.length_preorderAll : ∀ ts : List Tree, (preorderAll ts).length = sizeAll ts
  | [] => rfl
  | t :: ts => by
    rw [preorderAll, sizeAll, List.length_append, length_preorder t, length_preorderAll ts]
end

/-! ## Questions of images -/

section Images

variable {m : Type → Type u} [Monad m] [LawfulMonad m] {α β : Type}

/-- A search in images is one with the question put to the images. -/
theorem findM?_map (f : α → β) (p : β → m Bool) (as : List α) :
    (as.map f).findM? p = Option.map f <$> as.findM? fun a => p (f a) := by
  induction as with
  | nil => simp [List.findM?]
  | cons a as ih =>
    rw [List.map_cons, List.findM?, List.findM?, map_bind]
    refine bind_congr fun b => ?_
    cases b with
    | true => simp
    | false => exact ih

/-- The loop over images, with what it has picked so far. -/
theorem filterAuxM_map (f : α → β) (p : β → m Bool) (as noted : List α) :
    List.filterAuxM p (as.map f) (noted.map f) =
      List.map f <$> List.filterAuxM (fun a => p (f a)) as noted := by
  induction as generalizing noted with
  | nil => simp [List.filterAuxM]
  | cons a as ih =>
    rw [List.map_cons, List.filterAuxM, List.filterAuxM, map_bind]
    refine bind_congr fun b => ?_
    cases b with
    | true => exact ih (a :: noted)
    | false => exact ih noted

theorem filterM_map (f : α → β) (p : β → m Bool) (as : List α) :
    (as.map f).filterM p = List.map f <$> as.filterM fun a => p (f a) := by
  have noted := filterAuxM_map f p as []
  rw [List.map_nil] at noted
  simp [List.filterM, noted]

end Images

namespace Cursor

/-! ## A subtree and the whole tree -/

/-- A place of the subtree at a cursor, as a place of the whole tree. -/
def within (s c : Cursor) : Cursor :=
  ⟨c.focus, c.path ++ s.path⟩

/-- The places of the subtree at a cursor, in preorder. -/
def places (s : Cursor) : List Cursor :=
  placesIn s.path s.focus

mutual
/-- The places of a tree, set below a cursor. -/
theorem map_within_placesIn (s : Cursor) : ∀ (t : Tree) (inner : List Frame),
    (placesIn inner t).map s.within = placesIn (inner ++ s.path) t
  | .node l cs, inner => by
    rw [placesIn, placesIn, List.map_cons, map_within_placesAmong s cs]
    rfl
theorem map_within_placesAmong (s : Cursor) : ∀ (ts : List Tree) (l : Label) (before : List Tree)
    (inner : List Frame),
    (placesAmong l before inner ts).map s.within = placesAmong l before (inner ++ s.path) ts
  | [], _, _, _ => rfl
  | t :: ts, l, before, inner => by
    rw [placesAmong, placesAmong, List.map_append, map_within_placesIn s t,
      map_within_placesAmong s ts]
    rfl
end

/-- A walk from a node on its own goes through the places of the subtree. -/
theorem within_ahead (s : Cursor) : (ofTree s.focus).ahead.map s.within = s.places := by
  rw [ahead_ofTree, map_within_placesIn]
  rfl

/-- Different places of the subtree are different places of the whole tree. -/
theorem within_injective (s : Cursor) : Function.Injective s.within := by
  rintro ⟨t, path⟩ ⟨t', path'⟩ same
  simp only [within, Cursor.mk.injEq, List.append_left_inj] at same
  obtain ⟨rfl, rfl⟩ := same
  rfl

/-- No place is listed twice, because a walk comes to none twice. -/
theorem nodup_places (s : Cursor) : s.places.Nodup := by
  rw [← within_ahead]
  exact (nodup_ahead _).map s.within_injective

/-- **A search walks in preorder.** The places of the subtree at a cursor are those from which one
gets to the cursor by moving to the parent; there is one for each node of the subtree, and preorder
lists them without repetition. A search that starts on the node asks of them in this order, whatever
effect a question has, till one is answered with yes, which it returns; a search for all nodes asks
of all of them and returns those with a yes. Where questions have no effect, they find the first node
in preorder that has the property, or nothing if no node of the subtree has it, and all such nodes in
preorder. -/
theorem walk_preorder (s : Cursor) :
    (s.places.map focus = s.focus.preorder ∧ s.places.length = s.focus.size ∧ s.places.Nodup ∧
      ∀ c, c ∈ s.places ↔ c.LiesIn s) ∧
    (∀ (m : Type → Type u) [Monad m] [LawfulMonad m] (p : Cursor → m Bool),
      (Option.map s.within <$> (ofTree s.focus).searchM fun c => p (s.within c)) =
        s.places.findM? p ∧
      (List.map s.within <$> (ofTree s.focus).collectM fun c => p (s.within c)) =
        s.places.filterM p) ∧
    ∀ p : Tree → Bool,
      (s.focus.locate? p).map s.within = s.places.find? (p ·.focus) ∧
      s.focus.firstWhere? p = s.focus.preorder.find? p ∧
      (s.focus.firstWhere? p = none ↔ ∀ t ∈ s.focus.preorder, p t = false) ∧
      s.focus.allWhere p = s.focus.preorder.filter p := by
  have nodes : s.places.map focus = s.focus.preorder := map_focus_placesIn _ _
  refine ⟨⟨nodes, ?_, s.nodup_places, fun c => mem_placesIn_iff⟩, ?_, ?_⟩
  · rw [← length_preorder, ← nodes, List.length_map]
  · intro m _ _ p
    constructor
    · rw [searchM_eq, ← within_ahead, findM?_map]
    · rw [collectM_eq, ← within_ahead, filterM_map]
  · intro p
    refine ⟨?_, firstWhere?_eq _ p, ?_, allWhere_eq _ p⟩
    · rw [locate?, search_eq_find?, ← within_ahead, List.find?_map]
      rfl
    · simp [firstWhere?_eq]

end Cursor

end RouteDoc.Code

namespace RouteDoc.Sample

open Code Cursor

/-- A block with two names in it that are alike. -/
def twins : Tree :=
  .node { kind := .block, start := 0, stop := 2, text := "aa" } [twin, twin]
where
  twin : Tree := .node { kind := .name, start := 0, stop := 1, text := "a" } []

/-- The second of two such blocks. -/
def secondTwins : Cursor :=
  ⟨twins, [⟨{ kind := .program, start := 0, stop := 4, text := "aaaa" }, [twins], []⟩]⟩

/-- Whether a place is that of a name behind another node; each place that is asked about is written
down, by the numbers of siblings in front on the way up. -/
def isSecondName (c : Cursor) : StateM (List (List Nat)) Bool := do
  modify (· ++ [c.path.map (·.left.length)])
  return c.focus.kind == .name && !c.left.isEmpty

/-- The search asks of the block and of both names, and tells the names apart. -/
theorem walk_preorder_of_twins :
    secondTwins.places.length = 3 ∧
      ((Option.map secondTwins.within <$> (ofTree twins).searchM fun c =>
        isSecondName (secondTwins.within c)).run []) =
        (some ⟨twins.twin, ⟨twins.label, [twins.twin], []⟩ :: secondTwins.path⟩,
          [[1], [0, 1], [1, 1]]) := by
  have walk := walk_preorder secondTwins
  refine ⟨walk.1.2.1, ?_⟩
  rw [show twins = secondTwins.focus from rfl, (walk.2.1 _ isSecondName).1]
  rfl

end RouteDoc.Sample
