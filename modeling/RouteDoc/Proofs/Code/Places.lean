import Mathlib.Logic.Relation
import RouteDoc.Code.Cursor

/-!
# Places in a tree

A cursor names a place in a tree, and what it holds is enough to put the whole tree together again.
In front of a place stand the nodes that a search from the root passes on its way there: the nodes
above it, and all nodes below siblings to the left of those.

The places of a tree are listed in preorder by recursion on the tree. They are all that there are,
and they are where the steps of a cursor lead from the root, each once.

## Main statements

* `preorder_root`: the nodes of a tree are those in front of a place, and then those that a search
  has ahead of it there.
* `ahead_eq`: the steps of a cursor lead through the places of a tree in preorder.
* `mem_placesIn_iff`: these are the places from which one gets to the root of the tree by moving to
  the parent.
* `nodup_ahead`: a cursor comes to no place twice.
* `search_of_passed`: a search that finds nothing in front of a place gets there.
* `locate?_eq_some_iff`: so it ends at the one place that has the property and has no such node in
  front of it. This speaks of the place and not only of the node that stands there.
-/

set_option autoImplicit false

namespace RouteDoc.Code

open RouteDoc.Code.Tree

/-- The node above, with a tree in the gap between its children. -/
def Frame.fill (f : Frame) (t : Tree) : Tree :=
  .node f.label (f.left.reverse ++ t :: f.right)

namespace Cursor

/-- A tree with all that lies around it. -/
def around (t : Tree) : List Frame → Tree
  | [] => t
  | f :: up => around (f.fill t) up

/-- The tree in which a cursor stands. -/
def root (c : Cursor) : Tree :=
  around c.focus c.path

/-- The nodes in front of a tree within all that lies around it, in preorder. -/
def inFront (t : Tree) : List Frame → List Tree
  | [] => []
  | f :: up => inFront (f.fill t) up ++ f.fill t :: preorderAll f.left.reverse

/-- The nodes in front of a place, in preorder. -/
def passed (c : Cursor) : List Tree :=
  inFront c.focus c.path

@[simp] theorem root_ofTree (t : Tree) : (ofTree t).root = t := rfl

@[simp] theorem passed_ofTree (t : Tree) : (ofTree t).passed = [] := rfl

theorem root_of_parent {c d : Cursor} (above : c.parent? = some d) : d.root = c.root := by
  obtain ⟨t, path⟩ := c
  cases path with
  | nil => cases above
  | cons f up =>
    cases above
    rfl

/-- The nodes of a tree are those in front of a place and those ahead of a search there. -/
theorem preorder_root (c : Cursor) : c.root.preorder = c.passed ++ c.rest := by
  obtain ⟨t, path⟩ := c
  induction path generalizing t with
  | nil => simp [root, around, passed, inFront, rest, behind]
  | cons f up ih =>
    refine (ih (f.fill t)).trans ?_
    simp [passed, inFront, rest, behind, Frame.fill, preorder, preorderAll]

/-! ## The way of a search -/

/-- What is known where there is a next sibling: the node goes to the left of it. -/
theorem exists_of_nextSibling {c d : Cursor} (next : c.nextSibling? = some d) :
    ∃ l before u us up, c.path = ⟨l, before, u :: us⟩ :: up ∧
      d = ⟨u, ⟨l, c.focus :: before, us⟩ :: up⟩ := by
  unfold nextSibling? at next
  split at next
  · rename_i sides
    exact ⟨_, _, _, _, _, sides, (Option.some.inj next).symm⟩
  · cases next

/-- What is known at the last of some siblings: the parent has them all below it. -/
theorem exists_of_last {c d : Cursor} (last : c.nextSibling? = none) (above : c.parent? = some d) :
    ∃ l before up, c.path = ⟨l, before, []⟩ :: up ∧
      d = ⟨.node l (before.reverse ++ [c.focus]), up⟩ := by
  obtain ⟨t, path⟩ := c
  cases path with
  | nil => cases above
  | cons f up =>
    obtain ⟨l, before, right⟩ := f
    cases right with
    | nil => exact ⟨l, before, up, rfl, (Option.some.inj above).symm⟩
    | cons u us => cases last

/-- A climb stays in the tree, and leaves the node with all below it behind. -/
theorem passed_climb {c d : Cursor} (step : c.climb? = some d) :
    d.root = c.root ∧ d.passed = c.passed ++ c.focus.preorder := by
  fun_induction climb? c with
  | case1 c e next =>
    cases step
    obtain ⟨l, before, u, us, up, sides, rfl⟩ := exists_of_nextSibling next
    obtain ⟨t, path⟩ := c
    cases sides
    constructor
    · simp [root, around, Frame.fill]
    · simp [passed, inFront, Frame.fill, preorderAll]
  | case2 c last e above ih =>
    obtain ⟨same, more⟩ := ih step
    refine ⟨same.trans (root_of_parent above), more.trans ?_⟩
    obtain ⟨l, before, up, sides, rfl⟩ := exists_of_last last above
    obtain ⟨t, path⟩ := c
    cases sides
    simp [passed, inFront, Frame.fill, preorder, preorderAll]
  | case3 c last top => cases step

/-- A step stays in the tree, and leaves the node behind. -/
theorem passed_next {c d : Cursor} (step : c.next? = some d) :
    d.root = c.root ∧ d.passed = c.passed ++ [c.focus] := by
  obtain ⟨⟨l, children⟩, path⟩ := c
  cases children with
  | nil => exact passed_climb step
  | cons t ts =>
    cases step
    simp [root, around, passed, inFront, Frame.fill, preorderAll]

/-- Where a search ends, the node has the property; what has been passed on the way has it not. -/
theorem passed_search {p : Tree → Bool} {c d : Cursor} (found : c.search p = some d) :
    d.root = c.root ∧ p d.focus = true ∧
      ∃ more, d.passed = c.passed ++ more ∧ ∀ t ∈ more, p t = false := by
  induction c using search_induction with
  | found c has =>
    rw [search_of_has has] at found
    cases found
    exact ⟨rfl, has, [], by simp, by simp⟩
  | step c next hasNot step ih =>
    rw [search_of_not hasNot, step] at found
    obtain ⟨sameNext, one⟩ := passed_next step
    obtain ⟨same, has, more, eq, absent⟩ := ih found
    refine ⟨same.trans sameNext, has, c.focus :: more, by simp [eq, one], ?_⟩
    rintro t (_ | ⟨_, mem⟩)
    · exact hasNot
    · exact absent t mem
  | stuck c hasNot stuck =>
    rw [search_of_not hasNot, stuck] at found
    cases found

variable {p : Tree → Bool}

/-- From the last sibling one climbs as from the parent. -/
theorem climb?_last (t : Tree) (l : Label) (before : List Tree) (path : List Frame) :
    climb? ⟨t, ⟨l, before, []⟩ :: path⟩ = climb? ⟨.node l (before.reverse ++ [t]), path⟩ := by
  rw [climb?]
  rfl

theorem climb?_cons (t u : Tree) (l : Label) (before us : List Tree) (path : List Frame) :
    climb? ⟨t, ⟨l, before, u :: us⟩ :: path⟩ = some ⟨u, ⟨l, t :: before, us⟩ :: path⟩ := by
  rw [climb?]
  rfl

/-! ## The places of a tree -/

mutual
/-- The places of a tree with all that lies around it, each before those below it. -/
def placesIn (path : List Frame) : Tree → List Cursor
  | .node l cs => ⟨.node l cs, path⟩ :: placesAmong l [] path cs
/-- The places of the children of a node that are behind some others, one child after another. -/
def placesAmong (l : Label) (before : List Tree) (path : List Frame) : List Tree → List Cursor
  | [] => []
  | t :: ts => placesIn (⟨l, before, ts⟩ :: path) t ++ placesAmong l (t :: before) path ts
end

mutual
/-- What stands at the places of a tree are its nodes in preorder. -/
theorem map_focus_placesIn : ∀ (t : Tree) (path : List Frame),
    (placesIn path t).map focus = t.preorder
  | .node l cs, path => by
    rw [placesIn, List.map_cons, map_focus_placesAmong cs]
    rfl
theorem map_focus_placesAmong : ∀ (ts : List Tree) (l : Label) (before : List Tree)
    (path : List Frame), (placesAmong l before path ts).map focus = preorderAll ts
  | [], _, _, _ => rfl
  | t :: ts, l, before, path => by
    rw [placesAmong, List.map_append, map_focus_placesIn t, map_focus_placesAmong ts]
    rfl
end

mutual
/-- A walk goes through the places of a tree in preorder, and then to where a climb leads. -/
theorem ahead_eq : ∀ (t : Tree) (path : List Frame),
    ahead ⟨t, path⟩ = placesIn path t ++ (climb? ⟨t, path⟩).elim [] ahead
  | .node l [], path => by
    rw [ahead_next?]
    rfl
  | .node l (t :: ts), path => by
    rw [ahead_next?, placesIn]
    exact congrArg (_ :: ·) (ahead_among (t :: ts) l [] path t ts rfl)
/-- A walk goes through the places of children one after another, and then to where a climb from
their parent leads. -/
theorem ahead_among : ∀ (ts : List Tree) (l : Label) (before : List Tree) (path : List Frame),
    ∀ u us, ts = u :: us → ahead ⟨u, ⟨l, before, us⟩ :: path⟩ =
      placesAmong l before path ts ++
        (climb? ⟨.node l (before.reverse ++ ts), path⟩).elim [] ahead
  | [], _, _, _ => by
    rintro u us ⟨⟩
  | t :: ts, l, before, path => by
    rintro _ _ ⟨⟩
    rw [ahead_eq t, placesAmong, List.append_assoc]
    -- A climb goes to the next child if there is one, and else it is a climb from the parent.
    cases ts with
    | nil => rw [climb?_last, placesAmong, List.nil_append]
    | cons u us =>
      rw [climb?_cons, Option.elim_some, ahead_among (u :: us) l (t :: before) path u us rfl,
        List.reverse_cons, List.append_assoc]
      rfl
end

/-- From the root a walk goes through all places of the tree. -/
theorem ahead_ofTree (t : Tree) : (ofTree t).ahead = placesIn [] t := by
  have top : climb? (ofTree t) = none := by
    rw [climb?]
    rfl
  rw [ofTree, ahead_eq, ← ofTree, top, Option.elim_none, List.append_nil]

/-- One place lies in the subtree at another: moving to the parent, again and again, leads there. -/
def LiesIn (c s : Cursor) : Prop :=
  Relation.ReflTransGen (fun d e => d.parent? = some e) c s

/-- Every place lies in the tree in which it stands. -/
theorem liesIn_ofTree (c : Cursor) : c.LiesIn (ofTree c.root) := by
  obtain ⟨t, path⟩ := c
  induction path generalizing t with
  | nil => exact .refl
  | cons f up ih => exact .head rfl (ih (f.fill t))

mutual
/-- A place of a subtree lies in it. -/
theorem liesIn_of_mem {c : Cursor} : ∀ (t : Tree) (path : List Frame),
    c ∈ placesIn path t → c.LiesIn ⟨t, path⟩
  | .node l cs, path => fun mem => by
    rcases List.mem_cons.mp mem with rfl | below
    · exact .refl
    · exact liesIn_of_mem_among cs l [] path below
theorem liesIn_of_mem_among {c : Cursor} : ∀ (ts : List Tree) (l : Label) (before : List Tree)
    (path : List Frame),
    c ∈ placesAmong l before path ts → c.LiesIn ⟨.node l (before.reverse ++ ts), path⟩
  | [], _, _, _ => fun mem => absurd mem List.not_mem_nil
  | t :: ts, l, before, path => fun mem => by
    rcases List.mem_append.mp mem with first | behind
    · exact (liesIn_of_mem t _ first).tail rfl
    · have lies := liesIn_of_mem_among ts l (t :: before) path behind
      rwa [List.reverse_cons, List.append_assoc] at lies
end

/-- The places of the later children are among those of all of them. -/
theorem placesAmong_subset (l : Label) (path : List Frame) (us : List Tree) :
    ∀ (ts before : List Tree),
      placesAmong l (ts.reverse ++ before) path us ⊆ placesAmong l before path (ts ++ us)
  | [], _ => fun _ mem => mem
  | t :: ts, before => fun c mem => by
    rw [List.reverse_cons, List.append_assoc] at mem
    exact List.mem_append_right _ (placesAmong_subset l path us ts (t :: before) mem)

/-- The places below a node are among those below its parent. -/
theorem placesIn_subset_of_parent {c d : Cursor} (above : c.parent? = some d) :
    placesIn c.path c.focus ⊆ placesIn d.path d.focus := by
  obtain ⟨t, path⟩ := c
  cases path with
  | nil => cases above
  | cons f up =>
    cases above
    intro e mem
    refine List.mem_cons_of_mem _ (placesAmong_subset f.label up (t :: f.right) f.left.reverse [] ?_)
    rw [List.reverse_reverse, List.append_nil]
    exact List.mem_append_left _ mem

/-- The places of a tree are all those that lie in it, and no others. -/
theorem mem_placesIn_iff {c s : Cursor} : c ∈ placesIn s.path s.focus ↔ c.LiesIn s := by
  constructor
  · exact liesIn_of_mem s.focus s.path
  · intro lies
    induction lies with
    | refl =>
      obtain ⟨⟨l, cs⟩, path⟩ := c
      exact List.mem_cons_self
    | tail _ above ih => exact placesIn_subset_of_parent above ih

/-- A walk from the root comes to every place. -/
theorem mem_ahead_root (c : Cursor) : c ∈ (ofTree c.root).ahead := by
  rw [ahead_ofTree]
  exact mem_placesIn_iff.mpr (liesIn_ofTree c)

/-- A place that lies ahead has in front of it what a place has that is passed on the way there, and
the nodes on the way. -/
theorem exists_way {c d : Cursor} (mem : d ∈ c.ahead) :
    ∃ way, c.ahead = way ++ d.ahead ∧ d.passed = c.passed ++ way.map focus := by
  induction c using walk_induction with
  | step c next step ih =>
    rw [ahead_next?, step, Option.elim_some] at mem
    rcases List.mem_cons.mp mem with rfl | later
    · exact ⟨[], rfl, by simp⟩
    · obtain ⟨way, ahead, passed⟩ := ih later
      refine ⟨c :: way, ?_, ?_⟩
      · rw [ahead_next?, step, Option.elim_some, ahead, List.cons_append]
      · rw [passed, (passed_next step).2, List.map_cons, List.append_assoc]
        rfl
  | last c stuck =>
    rw [ahead_next?, stuck, Option.elim_none, List.mem_singleton] at mem
    subst mem
    exact ⟨[], rfl, by simp⟩

/-- A walk comes to no place twice, since more and more nodes are in front of it. -/
theorem nodup_ahead (c : Cursor) : c.ahead.Nodup := by
  induction c using walk_induction with
  | step c next step ih =>
    rw [ahead_next?, step, Option.elim_some]
    refine List.nodup_cons.mpr ⟨fun again => ?_, ih⟩
    obtain ⟨way, -, passed⟩ := exists_way again
    have longer := congrArg List.length passed
    rw [(passed_next step).2] at longer
    simp only [List.length_append, List.length_singleton] at longer
    omega
  | last c stuck =>
    rw [ahead_next?, stuck, Option.elim_none]
    exact List.nodup_cons.mpr ⟨List.not_mem_nil, List.nodup_nil⟩

/-- A search that finds nothing in front of a place gets there. -/
theorem search_of_passed (c : Cursor) (absent : ∀ t ∈ c.passed, p t = false) :
    (ofTree c.root).search p = c.search p := by
  obtain ⟨way, ahead, passed⟩ := exists_way (mem_ahead_root c)
  rw [passed_ofTree, List.nil_append] at passed
  have skipped : way.find? (p ·.focus) = none := by
    rw [List.find?_eq_none]
    intro d mem
    simp [absent d.focus (passed ▸ List.mem_map_of_mem mem)]
  rw [search_eq_find?, ahead, List.find?_append, skipped, Option.none_or, search_eq_find?]

end Cursor

/-- **A search ends at the one place that has the property and no such node in front of it.** -/
theorem Tree.locate?_eq_some_iff {t : Tree} {p : Tree → Bool} {c : Cursor} :
    t.locate? p = some c ↔ c.root = t ∧ p c.focus = true ∧ ∀ x ∈ c.passed, p x = false := by
  constructor
  · intro found
    obtain ⟨same, has, more, eq, absent⟩ := Cursor.passed_search found
    refine ⟨same, has, ?_⟩
    rw [eq]
    simpa using absent
  · rintro ⟨rfl, has, absent⟩
    rw [locate?, Cursor.search_of_passed c absent, Cursor.search_of_has has]

/-- A search that finds nothing has asked of all nodes. -/
theorem Tree.locate?_eq_none_iff {t : Tree} {p : Tree → Bool} :
    t.locate? p = none ↔ ∀ x ∈ t.preorder, p x = false := by
  rw [← Option.map_eq_none_iff (f := Cursor.focus)]
  show t.firstWhere? p = none ↔ _
  simp [Tree.firstWhere?_eq]

end RouteDoc.Code
