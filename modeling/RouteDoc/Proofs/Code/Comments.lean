import Mathlib.Data.List.Forall2
import RouteDoc.Code.Cursor

/-!
# Trees without comments

A comment may stand between any two nodes of a tree. It has no nodes below it and is nothing to the
node above it, and in a string it stands in a hole only, beside what fills the hole. Taking comments
out of such a tree, as many as one likes, leaves the other nodes as they are. A search for something
that is no comment then finds the same node as before, but for comments below it.

## Main statements

* `Cleared.find?_preorder`: a search of all nodes.
* `Cleared.inRole?`, `Cleared.ofKind?`, `Cleared.lastPart?`: searches among the children.
-/

set_option autoImplicit false

namespace RouteDoc.Code.Tree

mutual
/-- The second tree is the first without some of its comments. -/
inductive Uncommented : Tree → Tree → Prop where
  | node (l : Label) {cs ds : List Tree} (below : UncommentedAll cs ds) :
    Uncommented (.node l cs) (.node l ds)
/-- The second trees are the first without some of the comments among them and in them. -/
inductive UncommentedAll : List Tree → List Tree → Prop where
  | nil : UncommentedAll [] []
  | keep {t u : Tree} {ts us : List Tree} (first : Uncommented t u)
      (rest : UncommentedAll ts us) : UncommentedAll (t :: ts) (u :: us)
  | drop {t : Tree} {ts us : List Tree} (comment : t.isComment = true)
      (rest : UncommentedAll ts us) : UncommentedAll (t :: ts) us
end

mutual
/-- A tree without all its comments. -/
def bare : Tree → Tree
  | .node l cs => .node l (bareAll cs)
/-- Trees without all the comments among them and in them. -/
def bareAll : List Tree → List Tree
  | [] => []
  | t :: ts => if t.isComment then bareAll ts else bare t :: bareAll ts
end

mutual
/-- A tree without all its comments is one without some of them. -/
theorem uncommented_bare : ∀ t : Tree, Uncommented t t.bare
  | .node l cs => .node l (uncommentedAll_bareAll cs)
theorem uncommentedAll_bareAll : ∀ ts : List Tree, UncommentedAll ts (bareAll ts)
  | [] => .nil
  | t :: ts => by
    rw [bareAll]
    split
    next comment => exact .drop comment (uncommentedAll_bareAll ts)
    next => exact .keep (uncommented_bare t) (uncommentedAll_bareAll ts)
end

/-! ## Where comments stand -/

/-- A node of some trees is a node of one of them. -/
theorem mem_preorderAll {n : Tree} {ts : List Tree} :
    n ∈ preorderAll ts ↔ ∃ t ∈ ts, n ∈ t.preorder := by
  induction ts with
  | nil => simp [preorderAll]
  | cons t ts ih => simp [preorderAll, ih]

/-- What holds of all nodes holds of the root and of all nodes below it. -/
theorem forall_preorder_node {p : Tree → Prop} {l : Label} {cs : List Tree} :
    (∀ n ∈ (node l cs).preorder, p n) ↔ p (node l cs) ∧ ∀ c ∈ cs, ∀ n ∈ c.preorder, p n := by
  simp only [preorder, List.forall_mem_cons, mem_preorderAll]
  refine and_congr_right fun _ => ⟨fun h t mem n below => h n ⟨t, mem, below⟩, ?_⟩
  rintro h n ⟨t, mem, below⟩
  exact h t mem n below

/-- Whether a part of a string fills a hole. -/
def fills (t : Tree) : Bool :=
  t.isPart && !t.isComment && t.kind != .stringContent

/-- What holds of a node as regards comments: it is one only as a leaf without a role, and a string
with comments has a hole that is filled. -/
structure Tidy (t : Tree) : Prop where
  leaf : t.isComment = true → t.children = []
  roleless : t.isComment = true → t.label.role = none
  hole : t.kind = .encapsedString → t.children.any isComment = true →
    t.children.any fills = true

/-- A tree with comments only where the grammar has them. -/
def CommentsApart (t : Tree) : Prop :=
  ∀ n ∈ t.preorder, n.Tidy

/-- Trees with comments only where the grammar has them. -/
def CommentsApartAll (ts : List Tree) : Prop :=
  ∀ t ∈ ts, t.CommentsApart

/-- Comments stand apart in a tree if they do at the root and in each tree below it. -/
theorem commentsApart_node {l : Label} {cs : List Tree} :
    (node l cs).CommentsApart ↔ (node l cs).Tidy ∧ CommentsApartAll cs :=
  forall_preorder_node

theorem commentsApartAll_cons {t : Tree} {ts : List Tree} :
    CommentsApartAll (t :: ts) ↔ t.CommentsApart ∧ CommentsApartAll ts :=
  List.forall_mem_cons

theorem CommentsApart.tidy {t : Tree} (h : t.CommentsApart) : t.Tidy :=
  h t (by rw [preorder_eq_cons]; exact List.mem_cons_self)

/-- The second tree is the first without some of its comments, all of which stand apart. -/
structure Cleared (t u : Tree) : Prop where
  apart : t.CommentsApart
  uncommented : Uncommented t u

/-- The second trees are the first without some of the comments among them and in them. -/
structure ClearedAll (ts us : List Tree) : Prop where
  apart : CommentsApartAll ts
  uncommented : UncommentedAll ts us

/-- A node keeps its label, so its kind, its role, its text and its span. -/
theorem Cleared.label {t u : Tree} (h : Cleared t u) : u.label = t.label := by
  cases h.uncommented
  rfl

theorem Cleared.kind {t u : Tree} (h : Cleared t u) : u.kind = t.kind :=
  congrArg Label.kind h.label

theorem Cleared.text {t u : Tree} (h : Cleared t u) : u.text = t.text :=
  congrArg Label.text h.label

/-- The same relation holds of the children. -/
theorem Cleared.below {t u : Tree} (h : Cleared t u) : ClearedAll t.children u.children := by
  obtain ⟨apart, ⟨l, below⟩⟩ := h
  exact ⟨(commentsApart_node.mp apart).2, below⟩

theorem ClearedAll.of_nil {us : List Tree} (h : ClearedAll [] us) : us = [] := by
  obtain ⟨-, ⟨⟩⟩ := h
  rfl

/-- The first of the trees stays, or it is a comment and does not. -/
theorem ClearedAll.of_cons {t : Tree} {ts us : List Tree} (h : ClearedAll (t :: ts) us) :
    (∃ u vs, us = u :: vs ∧ Cleared t u ∧ ClearedAll ts vs) ∨
      t.isComment = true ∧ t.Tidy ∧ ClearedAll ts us := by
  obtain ⟨apart, all⟩ := h
  obtain ⟨here, behind⟩ := commentsApartAll_cons.mp apart
  cases all with
  | keep first rest => exact .inl ⟨_, _, rfl, ⟨here, first⟩, ⟨behind, rest⟩⟩
  | drop comment rest => exact .inr ⟨comment, here.tidy, ⟨behind, rest⟩⟩

/-- Every tree that is left was there before. -/
theorem ClearedAll.exists_of_mem {ts us : List Tree} (h : ClearedAll ts us) {u : Tree}
    (mem : u ∈ us) : ∃ t ∈ ts, Cleared t u := by
  induction ts generalizing us with
  | nil =>
    rw [h.of_nil] at mem
    contradiction
  | cons t ts ih =>
    rcases h.of_cons with ⟨first, vs, rfl, cleared, rest⟩ | ⟨-, -, rest⟩
    · rcases List.mem_cons.mp mem with rfl | mem
      · exact ⟨t, List.mem_cons_self, cleared⟩
      · obtain ⟨s, here, cleared⟩ := ih rest mem
        exact ⟨s, List.mem_cons_of_mem _ here, cleared⟩
    · obtain ⟨s, here, cleared⟩ := ih rest mem
      exact ⟨s, List.mem_cons_of_mem _ here, cleared⟩

/-! ## Searches -/

/-- A property of nodes that no comment has, and that does not hang on comments. -/
structure Heedless (p : Tree → Bool) : Prop where
  cleared : ∀ {t u}, Cleared t u → p u = p t
  comment : ∀ {t : Tree}, t.Tidy → t.isComment = true → p t = false

/-- A property of the label alone. -/
theorem heedless_of_label (p : Label → Bool)
    (comment : ∀ l, l.kind = .comment → l.role = none → p l = false) :
    Heedless fun t => p t.label where
  cleared h := congrArg p h.label
  comment tidy isComment := comment _ (beq_iff_eq.mp isComment) (tidy.roleless isComment)

/-- To be of a certain kind, other than that of comments, does not hang on comments. -/
theorem heedless_kind {k : Kind} (other : k ≠ .comment) : Heedless (·.kind == k) :=
  heedless_of_label (·.kind == k) fun l comment _ => by
    rw [comment]
    exact beq_false_of_ne other.symm

/-- A property that no comment has may be narrowed by one that does not hang on comments. -/
theorem Heedless.and {p q : Tree → Bool} (h : Heedless p)
    (same : ∀ {t u}, Cleared t u → q u = q t) : Heedless fun t => p t && q t where
  cleared one := by rw [h.cleared one, same one]
  comment tidy isComment := by rw [h.comment tidy isComment, Bool.false_and]

/-- What does not hang on comments is the same of what two searches find. -/
theorem map_of_rel {α : Type} {f : Tree → α} (same : ∀ {t u}, Cleared t u → f u = f t)
    {a b : Option Tree} (h : Option.Rel Cleared a b) : b.map f = a.map f := by
  cases h with
  | some one => exact congrArg some (same one)
  | none => rfl

/-- What may not be there, and does not hang on comments, is the same of what two searches find. -/
theorem bind_of_rel {α : Type} {f : Tree → Option α} (same : ∀ {t u}, Cleared t u → f u = f t)
    {a b : Option Tree} (h : Option.Rel Cleared a b) : b.bind f = a.bind f := by
  cases h with
  | some one => exact same one
  | none => rfl

/-- A second search where the first one finds nothing. -/
theorem rel_or {a a' b b' : Option Tree} (h : Option.Rel Cleared a b)
    (h' : Option.Rel Cleared a' b') : Option.Rel Cleared (a.or a') (b.or b') := by
  cases h with
  | some one => exact .some one
  | none => exact h'

/-- A second search in what the first one finds. -/
theorem rel_bind {f : Tree → Option Tree}
    (same : ∀ {t u}, Cleared t u → Option.Rel Cleared (f t) (f u))
    {a b : Option Tree} (h : Option.Rel Cleared a b) :
    Option.Rel Cleared (a.bind f) (b.bind f) := by
  cases h with
  | some one => exact same one
  | none => exact .none

section Searches

variable {p : Tree → Bool} (heedless : Heedless p)
include heedless

mutual
/-- A search of a tree finds the same node without comments. -/
theorem Cleared.find?_preorder : ∀ {t u : Tree}, Cleared t u →
    Option.Rel Cleared (t.preorder.find? p) (u.preorder.find? p)
  | .node l cs, u, h => by
    have same := heedless.cleared h
    rw [preorder_eq_cons u, preorder, List.find?_cons, List.find?_cons, same]
    cases p (.node l cs) with
    | true => exact .some h
    | false => exact ClearedAll.find?_preorderAll h.below
theorem ClearedAll.find?_preorderAll : ∀ {ts us : List Tree}, ClearedAll ts us →
    Option.Rel Cleared ((preorderAll ts).find? p) ((preorderAll us).find? p)
  | [], us, h => by
    rw [h.of_nil]
    exact .none
  | t :: ts, us, h => by
    rw [preorderAll, List.find?_append]
    rcases h.of_cons with ⟨u, vs, rfl, first, rest⟩ | ⟨comment, tidy, rest⟩
    · rw [preorderAll, List.find?_append]
      exact rel_or (Cleared.find?_preorder first) (ClearedAll.find?_preorderAll rest)
    · have leaf : t.preorder = [t] := by rw [preorder_eq_cons, tidy.leaf comment, preorderAll]
      rw [leaf, List.find?_cons, heedless.comment tidy comment]
      exact ClearedAll.find?_preorderAll rest
end

/-- The children with a property are the same without comments. -/
theorem ClearedAll.forall₂_filter {ts us : List Tree} (h : ClearedAll ts us) :
    List.Forall₂ Cleared (ts.filter p) (us.filter p) := by
  induction ts generalizing us with
  | nil =>
    rw [h.of_nil]
    exact .nil
  | cons t ts ih =>
    rcases h.of_cons with ⟨u, vs, rfl, first, rest⟩ | ⟨comment, tidy, rest⟩
    · rw [List.filter_cons, List.filter_cons, heedless.cleared first]
      split
      · exact .cons first (ih rest)
      · exact ih rest
    · rw [List.filter_cons_of_neg (by rw [heedless.comment tidy comment]; decide)]
      exact ih rest

/-- Whether some child has a property. -/
theorem ClearedAll.any {ts us : List Tree} (h : ClearedAll ts us) : us.any p = ts.any p := by
  induction ts generalizing us with
  | nil => rw [h.of_nil]
  | cons t ts ih =>
    rcases h.of_cons with ⟨u, vs, rfl, first, rest⟩ | ⟨comment, tidy, rest⟩
    · rw [List.any_cons, List.any_cons, heedless.cleared first, ih rest]
    · rw [List.any_cons, heedless.comment tidy comment, Bool.false_or, ih rest]

end Searches

/-- The first of the trees that are left, where none was taken out. -/
theorem rel_head? {ts us : List Tree} (h : List.Forall₂ Cleared ts us) :
    Option.Rel Cleared ts.head? us.head? := by
  cases h with
  | nil => exact .none
  | cons first rest => exact .some first

/-- What does not hang on comments may be asked of what was found. -/
theorem rel_filter {p q : Tree → Bool} (same : ∀ {t u}, Cleared t u → q u = p t)
    {a b : Option Tree} (h : Option.Rel Cleared a b) :
    Option.Rel Cleared (a.filter p) (b.filter q) := by
  cases h with
  | none => exact .none
  | some one =>
    rw [Option.filter_some, Option.filter_some, same one]
    split
    · exact .some one
    · exact .none

/-- The child in a role stays, since comments have none. -/
theorem Cleared.inRole? {t u : Tree} (h : Cleared t u) (r : Role) :
    Option.Rel Cleared (t.inRole? r) (u.inRole? r) := by
  have heedless : Heedless (·.label.role == some r) :=
    heedless_of_label (·.role == some r) fun l _ roleless => by
      rw [roleless]
      rfl
  rw [Tree.inRole?, Tree.inRole?, ← List.head?_filter, ← List.head?_filter]
  exact rel_head? (h.below.forall₂_filter heedless)

theorem Cleared.textInRole? {t u : Tree} (h : Cleared t u) (r : Role) :
    u.textInRole? r = t.textInRole? r :=
  map_of_rel Cleared.text (h.inRole? r)

/-- The first child of a kind stays, if comments are of another kind. -/
theorem Cleared.ofKind? {t u : Tree} (h : Cleared t u) {k : Kind} (other : k ≠ .comment) :
    Option.Rel Cleared (t.ofKind? k) (u.ofKind? k) := by
  have heedless : Heedless fun t => t.kind == k && t.isPart :=
    (heedless_kind other).and fun h => congrArg (fun l : Label => l.kind != .token) h.label
  rw [Tree.ofKind?, Tree.ofKind?, parts, parts, ← List.head?_filter, ← List.head?_filter,
    List.filter_filter, List.filter_filter]
  exact rel_head? (h.below.forall₂_filter heedless)

/-- The last child stays, comments and tokens apart. -/
theorem Cleared.lastPart? {t u : Tree} (h : Cleared t u) :
    Option.Rel Cleared t.lastPart? u.lastPart? := by
  have heedless : Heedless fun t => !t.isComment && t.isPart :=
    heedless_of_label (fun l => !(l.kind == .comment) && l.kind != .token) fun l comment _ => by
      rw [comment]
      rfl
  rw [Tree.lastPart?, Tree.lastPart?, parts, parts, List.filter_filter, List.filter_filter,
    ← List.head?_reverse, ← List.head?_reverse]
  exact rel_head? (List.rel_reverse (h.below.forall₂_filter heedless))

end RouteDoc.Code.Tree
