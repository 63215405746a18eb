import RouteDoc.Code.Tree

/-!
# Cursors

A cursor stands on a node of a tree and remembers what lies around it: the siblings to its left and
to its right, and the same for every node above. It moves to the first child, to the next sibling
and to the parent, and never leaves the tree on which it was set.

A search moves the cursor from node to node, down before right and right before up, until a node has
the property that is looked for. Whether a node has it is a question that may have an effect: a
search for all nodes is one whose question notes the nodes that have the property and is never
answered with yes.

## Main statements

* `rest_next?`: each step of a search goes to the next node in preorder.
* `searchM_eq`, `collectM_eq`: what a search asks, of which positions and in which order.
* `search_eq`: a search finds the first node in preorder, of those from the cursor on, that has the
  property.
* `firstWhere?_eq`, `allWhere_eq`: so a search from the root finds the first such node of the tree,
  or all of them.
-/

set_option autoImplicit false

namespace RouteDoc.Code

open RouteDoc.Code.Tree

/-- A node above a cursor: its label, and the children on both sides of the one that leads down. -/
structure Frame where
  /-- The label of the node. -/
  label : Label
  /-- The children before, the nearest first. -/
  left : List Tree
  /-- The children behind. -/
  right : List Tree

/-- A node within a tree. -/
structure Cursor where
  /-- The node. -/
  focus : Tree
  /-- What lies around it: its own siblings first, and then those of the nodes above. -/
  path : List Frame := []

namespace Cursor

/-- The cursor on the root of a tree. -/
def ofTree (t : Tree) : Cursor :=
  { focus := t }

/-- The siblings before the node, the nearest first. -/
def left (c : Cursor) : List Tree :=
  match c.path with
  | [] => []
  | f :: _ => f.left

/-- The move to the first child. -/
def firstChild? (c : Cursor) : Option Cursor :=
  match c.focus with
  | .node _ [] => none
  | .node l (t :: ts) => some ⟨t, ⟨l, [], ts⟩ :: c.path⟩

/-- The move to the next sibling. -/
def nextSibling? (c : Cursor) : Option Cursor :=
  match c.path with
  | ⟨l, before, t :: ts⟩ :: up => some ⟨t, ⟨l, c.focus :: before, ts⟩ :: up⟩
  | _ => none

/-- The move to the parent. -/
def parent? (c : Cursor) : Option Cursor :=
  match c.path with
  | [] => none
  | f :: up => some ⟨.node f.label (f.left.reverse ++ c.focus :: f.right), up⟩

/-- Moving to the parent shortens the way up, so a climb ends. -/
theorem length_path_of_parent {c d : Cursor} (h : c.parent? = some d) :
    d.path.length < c.path.length := by
  obtain ⟨t, path⟩ := c
  cases path with
  | nil => simp [parent?] at h
  | cons f up =>
    simp only [parent?, Option.some.injEq] at h
    subst h
    simp

/-- The next sibling of the node or else of the nearest node above that has one. -/
def climb? (c : Cursor) : Option Cursor :=
  match c.nextSibling? with
  | some d => some d
  | none =>
    match _h : c.parent? with
    | some d => d.climb?
    | none => none
termination_by c.path.length
decreasing_by exact length_path_of_parent _h

/-- The next position of a search. -/
def next? (c : Cursor) : Option Cursor :=
  match c.firstChild? with
  | some d => some d
  | none => c.climb?

/-- The nodes behind those on the path, in preorder. -/
def behind : List Frame → List Tree
  | [] => []
  | f :: up => preorderAll f.right ++ behind up

/-- The nodes of a search from the cursor on, in preorder. -/
def rest (c : Cursor) : List Tree :=
  c.focus.preorder ++ behind c.path

/-- What lies behind a cursor is what a climb leads to. -/
theorem behind_eq (c : Cursor) :
    behind c.path = match c.climb? with
      | some d => d.rest
      | none => [] := by
  fun_induction climb? c with
  | case1 c d h =>
    obtain ⟨t, path⟩ := c
    cases path with
    | nil => cases h
    | cons f up =>
      obtain ⟨l, before, after⟩ := f
      cases after with
      | nil => cases h
      | cons u us =>
        cases h
        simp [behind, rest, preorderAll]
  | case2 c h d hd ih =>
    obtain ⟨t, path⟩ := c
    cases path with
    | nil => cases hd
    | cons f up =>
      obtain ⟨l, before, after⟩ := f
      cases after with
      | nil =>
        cases hd
        simpa [behind, preorderAll] using ih
      | cons u us => cases h
  | case3 c h hd =>
    obtain ⟨t, path⟩ := c
    cases path with
    | nil => rfl
    | cons f up => cases hd

/-- Each step of a search goes to the next node in preorder. -/
theorem rest_next? (c : Cursor) :
    c.rest = c.focus :: match c.next? with
      | some d => d.rest
      | none => [] := by
  obtain ⟨⟨l, cs⟩, path⟩ := c
  cases cs with
  | nil =>
    have := behind_eq ⟨.node l [], path⟩
    simpa [rest, next?, firstChild?, preorder, preorderAll] using this
  | cons t ts => simp [rest, next?, firstChild?, preorder, preorderAll, behind]

/-- A step leaves fewer nodes ahead. -/
theorem length_rest_next {c d : Cursor} (h : c.next? = some d) : d.rest.length < c.rest.length := by
  rw [rest_next? c, h]
  simp

/-- What holds of a position if it holds of the next one holds of all positions. -/
theorem walk_induction {motive : Cursor → Prop}
    (step : ∀ c d, c.next? = some d → motive d → motive c)
    (last : ∀ c, c.next? = none → motive c) (c : Cursor) : motive c :=
  match h : c.next? with
  | some d => step c d h (walk_induction step last d)
  | none => last c h
termination_by c.rest.length
decreasing_by exact length_rest_next h

/-- The positions of a search from the cursor on. -/
def ahead (c : Cursor) : List Cursor :=
  match _h : c.next? with
  | some d => c :: d.ahead
  | none => [c]
termination_by c.rest.length
decreasing_by exact length_rest_next _h

/-- A walk is at the cursor and then wherever its next step leads. -/
theorem ahead_next? (c : Cursor) : c.ahead = c :: c.next?.elim [] ahead := by
  rw [ahead]
  split <;> simp [*]

/-- The nodes in the positions of a search are those that it has ahead of it. -/
theorem map_focus_ahead (c : Cursor) : c.ahead.map focus = c.rest := by
  induction c using walk_induction with
  | step c d h ih => rw [ahead_next?, rest_next?, h]; simp [ih]
  | last c h => rw [ahead_next?, rest_next?, h]; simp

/-! ## Searches -/

universe u

variable {m : Type → Type u} [Monad m]

/-- The first position from the cursor on that has a property. Whether it has the property is asked
of one position after another, and to ask may have an effect. -/
@[specialize]
def searchM (p : Cursor → m Bool) (c : Cursor) : m (Option Cursor) := do
  if ← p c then
    return some c
  match _h : c.next? with
  | some d => d.searchM p
  | none => return none
termination_by c.rest.length
decreasing_by exact length_rest_next _h

/-- Notes a position if it has a property, and lets the search go on. -/
def note (p : Cursor → m Bool) (c : Cursor) : StateT (List Cursor) m Bool := do
  if ← p c then
    modify (c :: ·)
  return false

/-- All positions from the cursor on that have a property, noted by a search that never ends at any
of them. -/
def collectM (p : Cursor → m Bool) (c : Cursor) : m (List Cursor) := do
  let (_, noted) ← (c.searchM (note p)).run []
  return noted.reverse

/-- The position of the first node from the cursor on that has a property. -/
def search (p : Tree → Bool) (c : Cursor) : Option Cursor :=
  Id.run (c.searchM fun d => pure (p d.focus))

/-- All nodes from the cursor on that have a property. -/
def collect (p : Tree → Bool) (c : Cursor) : List Tree :=
  (Id.run (c.collectM fun d => pure (p d.focus))).map focus

/-! ## What a search asks and finds -/

/-- A search asks of the positions ahead whether they have the property, one after another, till one
of them has it. -/
theorem searchM_eq [LawfulMonad m] (p : Cursor → m Bool) (c : Cursor) :
    c.searchM p = c.ahead.findM? p := by
  induction c using walk_induction with
  | step c d h ih =>
    rw [searchM, ahead_next?, h, List.findM?]
    refine bind_congr fun b => ?_
    cases b with
    | true => rfl
    | false => simpa [h] using ih
  | last c h =>
    rw [searchM, ahead_next?, h, List.findM?]
    refine bind_congr fun b => ?_
    cases b <;> simp [List.findM?]

/-- A search that notes what has the property goes through all positions ahead, and adds them in
front of what was noted before. -/
theorem run_searchM_note [LawfulMonad m] (p : Cursor → m Bool) (c : Cursor) (noted : List Cursor) :
    (c.searchM (note p)).run noted = (none, ·) <$> List.filterAuxM p c.ahead noted := by
  rw [searchM_eq]
  induction c.ahead generalizing noted with
  | nil => simp [List.findM?, List.filterAuxM]
  | cons d ds ih =>
    rw [List.findM?, List.filterAuxM, StateT.run_bind, note]
    simp only [StateT.run_bind, StateT.run_monadLift, monadLift_self, bind_assoc, map_bind,
      pure_bind]
    refine bind_congr fun b => ?_
    cases b with
    | true => simpa using ih (d :: noted)
    | false => simpa using ih noted

/-- A search for all nodes puts its question at all the positions of its walk. -/
theorem collectM_eq [LawfulMonad m] (p : Cursor → m Bool) (c : Cursor) :
    c.collectM p = c.ahead.filterM p := by
  simp [collectM, run_searchM_note, List.filterM]

/-- With an answer that has no effect the loop over a list only picks from it. -/
theorem filterAuxM_pure [LawfulMonad m] (p : Cursor → Bool) (cs noted : List Cursor) :
    List.filterAuxM (fun d => (pure (p d) : m Bool)) cs noted =
      pure ((cs.filter p).reverse ++ noted) := by
  induction cs generalizing noted with
  | nil => rfl
  | cons d ds ih =>
    rw [List.filterAuxM, pure_bind, ih]
    cases h : p d <;> simp [h]

/-- A search without effects finds the first position of its walk. -/
theorem search_eq_find? (p : Tree → Bool) (c : Cursor) :
    c.search p = c.ahead.find? (p ·.focus) := by
  rw [search, searchM_eq, List.findM?_pure]
  rfl

theorem collect_eq_filter (p : Tree → Bool) (c : Cursor) :
    c.collect p = (c.ahead.filter (p ·.focus)).map focus := by
  rw [collect, collectM_eq, List.filterM, filterAuxM_pure]
  simp

theorem search_of_has {p : Tree → Bool} {c : Cursor} (has : p c.focus = true) :
    c.search p = some c := by
  rw [search_eq_find?, ahead_next?]
  exact List.find?_cons_of_pos has

/-- Otherwise it goes on from the next position, if there is one. -/
theorem search_of_not {p : Tree → Bool} {c : Cursor} (hasNot : p c.focus = false) :
    c.search p = c.next?.bind (search p) := by
  rw [search_eq_find?, ahead_next?, List.find?_cons_of_neg (by simp [hasNot])]
  cases c.next? <;> simp [search_eq_find?]

/-- A search ends where the node has the property, goes on to the next position, or gets stuck. -/
theorem search_induction {p : Tree → Bool} {motive : Cursor → Prop}
    (found : ∀ c, p c.focus = true → motive c)
    (step : ∀ c d, p c.focus = false → c.next? = some d → motive d → motive c)
    (stuck : ∀ c, p c.focus = false → c.next? = none → motive c) (c : Cursor) : motive c := by
  induction c using walk_induction with
  | step c d h ih =>
    cases has : p c.focus with
    | true => exact found c has
    | false => exact step c d has h ih
  | last c h =>
    cases has : p c.focus with
    | true => exact found c has
    | false => exact stuck c has h

/-- A search finds the first node in preorder that has the property. -/
theorem search_eq (p : Tree → Bool) (c : Cursor) :
    (c.search p).map focus = c.rest.find? p := by
  rw [search_eq_find?, ← map_focus_ahead, List.find?_map]
  rfl

/-- A walk over all nodes meets them in preorder, each once. -/
theorem collect_eq (p : Tree → Bool) (c : Cursor) : c.collect p = c.rest.filter p := by
  rw [collect_eq_filter, ← map_focus_ahead, List.filter_map]
  rfl

end Cursor

namespace Tree

/-- The position of the first node of a tree, in preorder, that has a property. -/
def locate? (t : Tree) (p : Tree → Bool) : Option Cursor :=
  (Cursor.ofTree t).search p

/-- The first node of a tree, in preorder, that has a property. -/
def firstWhere? (t : Tree) (p : Tree → Bool) : Option Tree :=
  (t.locate? p).map Cursor.focus

/-- A search from the root finds the first node of the tree that has the property. -/
theorem firstWhere?_eq (t : Tree) (p : Tree → Bool) : t.firstWhere? p = t.preorder.find? p := by
  simp [firstWhere?, locate?, Cursor.search_eq, Cursor.rest, Cursor.ofTree, Cursor.behind]

/-- All nodes of a tree that have a property, in preorder. -/
def allWhere (t : Tree) (p : Tree → Bool) : List Tree :=
  (Cursor.ofTree t).collect p

/-- A walk from the root finds all nodes of the tree that have the property. -/
theorem allWhere_eq (t : Tree) (p : Tree → Bool) : t.allWhere p = t.preorder.filter p := by
  simp [allWhere, Cursor.collect_eq, Cursor.rest, Cursor.ofTree, Cursor.behind]

end Tree

end RouteDoc.Code
