import RouteDoc.Proofs.Code.Grammar
import RouteDoc.Proofs.Text.Spans

/-!
# Weaving comments in

The grammar reads a source without its comments and islands, which are woven in afterwards: each
comes to stand in the deepest node whose span it begins in, as a leaf beside the nodes that were read.
A string whose pieces are seamless has no room for it, so there it stays outside.

## Main statements

* `Tree.map_kind_weaveAll`: nothing is woven in where there is no room.
* `Tree.commentsApart_weave`: weaving comments into a raw tree.
* `commentsApart_parse`: in the tree of any source comments stand apart.
-/

set_option autoImplicit false

namespace RouteDoc.Code

namespace Tree

/-! ## Weaving -/

/-- A leaf that can be woven in. -/
structure Loose (e : Tree) : Prop where
  leaf : e.children = []
  roleless : e.label.role = none
  noString : e.kind ≠ .encapsedString

/-- Leaves of which the first begins in a span, and all before its end. -/
structure Within (start stop : Nat) (es : List Tree) : Prop where
  first : ∀ e ∈ es.head?, start ≤ e.start
  all : ∀ e ∈ es, e.start < stop

/-- A leaf has nothing below it in which a comment could stand. -/
theorem Loose.commentsApart {e : Tree} (h : e.Loose) : e.CommentsApart := by
  intro n mem
  rw [preorder_eq_cons, h.leaf] at mem
  cases List.mem_singleton.mp mem
  exact ⟨fun _ => h.leaf, fun _ => h.roleless, fun string => absurd string h.noString⟩

theorem weaveAll_nil (cs : List Tree) : weaveAll cs [] = cs := by
  induction cs with
  | nil => rw [weaveAll]
  | cons c cs ih => rw [weaveAll]; simp [weave, ih]

theorem weave_node (l : Label) (cs es : List Tree) :
    weave (node l cs) es = node l (weaveAll cs es) := by
  cases es with
  | nil => rw [weave, weaveAll_nil]
  | cons e es => rw [weave]

/-- The leaves in front of the first tree stay there, those within it go into it, and the others
come among those behind it. -/
theorem weaveAll_cons (c : Tree) (cs es : List Tree) :
    weaveAll (c :: cs) es =
      es.takeWhile (·.start < c.start) ++
        weave c ((es.dropWhile (·.start < c.start)).takeWhile (·.start < c.stop)) ::
          weaveAll cs ((es.dropWhile (·.start < c.start)).dropWhile (·.start < c.stop)) := by
  rw [weaveAll]

theorem kind_weave (t : Tree) (es : List Tree) : (weave t es).kind = t.kind := by
  obtain ⟨l, cs⟩ := t
  rw [weave_node]
  rfl

/-- Where there is no room, nothing comes between. -/
theorem map_kind_weaveAll {start stop : Nat} {cs es : List Tree} (seamless : Seamless start cs stop)
    (within : Within start stop es) : (weaveAll cs es).map kind = cs.map kind := by
  induction cs generalizing start es with
  | nil =>
    cases es with
    | nil => rw [weaveAll]
    | cons e es =>
      have begins := within.first e rfl
      have ends := within.all e List.mem_cons_self
      have : start = stop := seamless
      omega
  | cons c cs ih =>
    obtain ⟨begins, behind⟩ := seamless
    have none : es.takeWhile (·.start < c.start) = [] ∧ es.dropWhile (·.start < c.start) = es := by
      cases es with
      | nil => exact ⟨rfl, rfl⟩
      | cons e es =>
        have ahead : ¬ e.start < c.start := by
          have := within.first e rfl
          omega
        exact ⟨List.takeWhile_cons_of_neg (by simpa using ahead),
          List.dropWhile_cons_of_neg (by simpa using ahead)⟩
    rw [weaveAll_cons, none.1, none.2, List.nil_append, List.map_cons, List.map_cons, kind_weave]
    refine congrArg (_ :: ·) (ih behind ⟨fun e first => ?_, fun e mem => ?_⟩)
    · have := Text.not_of_mem_head?_dropWhile first
      simpa using this
    · exact within.all e ((List.dropWhile_sublist _).subset mem)

/-- A tree of a certain kind is still among them. -/
theorem any_weaveAll {p : Kind → Bool} {cs : List Tree} (some : cs.any (p ·.kind) = true)
    (es : List Tree) : (weaveAll cs es).any (p ·.kind) = true := by
  induction cs generalizing es with
  | nil => contradiction
  | cons c cs ih =>
    rw [weaveAll_cons, List.any_append, List.any_cons, kind_weave]
    rw [List.any_cons, Bool.or_eq_true] at some
    rcases some with here | behind
    · rw [here, Bool.true_or, Bool.or_true]
    · rw [ih behind, Bool.or_true, Bool.or_true]

/-- The leaves that go into a node lie within its span. -/
theorem within_of_span (start stop : Nat) (es : List Tree) :
    Within start stop ((es.dropWhile (·.start < start)).takeWhile (·.start < stop)) := by
  constructor
  · intro e first
    rw [List.head?_takeWhile] at first
    have := Text.not_of_mem_head?_dropWhile (Option.mem_filter_iff.mp first).1
    simpa using this
  · intro e mem
    simpa using List.mem_takeWhile_imp mem

/-- A node is tidy after weaving: a string without a hole takes no comment in. -/
theorem tidy_weaveAll {l : Label} {cs es : List Tree} (raw : (node l cs).Raw)
    (within : l.kind = .encapsedString → Within l.start l.stop es) :
    (node l (weaveAll cs es)).Tidy := by
  obtain ⟨⟨noComment, seamless⟩, raws⟩ := raw_node.mp raw
  refine ⟨fun comment => absurd (beq_iff_eq.mp comment) noComment,
    fun comment => absurd (beq_iff_eq.mp comment) noComment, fun string some => ?_⟩
  rcases seamless string with filled | seamless
  · exact any_weaveAll (p := fun k => k != .token && !(k == .comment) && k != .stringContent)
      filled es
  · have kinds : (weaveAll cs es).map kind = cs.map kind :=
      map_kind_weaveAll seamless (within string)
    have below : cs.any isComment = true := by
      have same : ∀ ts : List Tree, ts.any isComment = (ts.map kind).any (· == .comment) :=
        fun ts => by rw [List.any_map]; rfl
      rw [same, ← kinds, ← same]
      exact some
    obtain ⟨c, mem, comment⟩ := List.any_eq_true.mp below
    exact absurd (beq_iff_eq.mp comment) (raws c mem).root.noComment

mutual
/-- Weaving loose leaves into a raw tree sets comments apart. -/
theorem commentsApart_weave : ∀ (t : Tree) (es : List Tree), t.Raw → (∀ e ∈ es, e.Loose) →
    (t.kind = .encapsedString → Within t.start t.stop es) → (weave t es).CommentsApart
  | .node l cs, es, raw, loose, within => by
    rw [weave_node, commentsApart_node]
    exact ⟨tidy_weaveAll raw within, commentsApartAll_weaveAll cs es (raw_node.mp raw).2 loose⟩
theorem commentsApartAll_weaveAll : ∀ cs es : List Tree, RawAll cs → (∀ e ∈ es, e.Loose) →
    CommentsApartAll (weaveAll cs es)
  | [], es, _, loose => by
    rw [weaveAll]
    exact fun e mem => (loose e mem).commentsApart
  | c :: cs, es, raw, loose => by
    obtain ⟨first, rest⟩ := rawAll_cons.mp raw
    have behind : ∀ e ∈ es.dropWhile (·.start < c.start), e.Loose :=
      fun e mem => loose e ((List.dropWhile_sublist _).subset mem)
    rw [weaveAll_cons]
    refine List.forall_mem_append.mpr ⟨fun e mem => ?_, List.forall_mem_cons.mpr ⟨?_, ?_⟩⟩
    · exact (loose e ((List.takeWhile_sublist _).subset mem)).commentsApart
    · exact commentsApart_weave c _ first
        (fun e mem => behind e ((List.takeWhile_sublist _).subset mem))
        fun _ => within_of_span c.start c.stop es
    · exact commentsApartAll_weaveAll cs _ rest
        fun e mem => behind e ((List.dropWhile_sublist _).subset mem)
end

/-! ## Spelling -/

/-- To have its text does not change the kind of a node. -/
theorem any_spellAll (p : Kind → Bool) (source : String) (cs : List Tree) :
    (spellAll source cs).any (p ·.kind) = cs.any (p ·.kind) := by
  induction cs with
  | nil => rfl
  | cons c cs ih =>
    obtain ⟨l, below⟩ := c
    rw [spellAll, List.any_cons, List.any_cons, ih]
    rfl

/-- The texts of the nodes do not matter. -/
theorem Tidy.spell {l : Label} {cs : List Tree} (h : (node l cs).Tidy) (source : String) :
    ((node l cs).spell source).Tidy where
  leaf comment := by
    have leaf : cs = [] := h.leaf comment
    rw [leaf]
    rfl
  roleless := h.roleless
  hole string some := by
    have comments := any_spellAll (· == .comment) source cs
    have fillings :=
      any_spellAll (fun k => k != .token && !(k == .comment) && k != .stringContent) source cs
    exact fillings.trans (h.hole string (comments.symm.trans some))

mutual
/-- Comments stand apart also when the nodes have their texts. -/
theorem CommentsApart.spell (source : String) :
    ∀ {t : Tree}, t.CommentsApart → (t.spell source).CommentsApart
  | .node l cs, h => by
    obtain ⟨tidy, below⟩ := commentsApart_node.mp h
    exact commentsApart_node.mpr ⟨tidy.spell source, CommentsApartAll.spell source below⟩
theorem CommentsApartAll.spell (source : String) :
    ∀ {ts : List Tree}, CommentsApartAll ts → CommentsApartAll (spellAll source ts)
  | [], _ => List.forall_mem_nil _
  | t :: ts, h => by
    obtain ⟨first, rest⟩ := commentsApartAll_cons.mp h
    exact commentsApartAll_cons.mpr
      ⟨CommentsApart.spell source first, CommentsApartAll.spell source rest⟩
end

end Tree

/-! ## Sources -/

open RouteDoc.Code.Tree

/-- Trivia are loose leaves. -/
theorem loose_leaf {t : Token} (trivia : t.isTrivia = true) : t.leaf.Loose := by
  refine ⟨rfl, rfl, ?_⟩
  have kinds : t.kind = .comment ∨ t.kind = .island := by
    simpa [Token.isTrivia] using trivia
  rcases kinds with kind | kind <;> simp [Token.leaf, Token.leafOf, Token.leafKind, Tree.kind, kind]

/-- **In the tree of a source comments stand apart.** -/
theorem commentsApart_parse (source : String) : (parse source).CommentsApart := by
  let read := significant (Scan.tokens source)
  let code := read.dropWhile (·.kind == .outside)
  have readable : Readable read := readable_tokens source
  have lead : RawAll ((read.takeWhile (·.kind == .outside)).map Token.leaf) := by
    rintro _ mem
    obtain ⟨t, inside, rfl⟩ := List.mem_map.mp mem
    exact raw_leaf.mpr (readable.noComment t ((List.takeWhile_sublist _).subset inside))
  have items : ∀ fuel, RawAll (((programItems (grammar fuel) code).map Prod.fst).getD []) := by
    intro fuel
    cases given : programItems (grammar fuel) code with
    | none => exact rawAll_nil
    | some p =>
      have gives := Grammar.gives_programItems (Grammar.sound_grammar fuel)
      have behind : Readable code := readable.suffix (List.dropWhile_suffix _)
      exact (Reader.triple_iff.mp gives code behind _ _ given).2
  have loose : ∀ e ∈ ((Scan.tokens source).filter Token.isTrivia).map Token.leaf, e.Loose := by
    rintro _ mem
    obtain ⟨t, inside, rfl⟩ := List.mem_map.mp mem
    exact loose_leaf (List.mem_filter.mp inside).2
  have root : ∀ stop cs, RawAll cs → (node ⟨.program, none, 0, stop, ""⟩ cs).Raw :=
    fun _ _ raws => raw_node.mpr ⟨⟨nofun, nofun⟩, raws⟩
  have woven : ∀ stop cs, RawAll cs →
      ((node ⟨.program, none, 0, stop, ""⟩ cs).weave
        (((Scan.tokens source).filter Token.isTrivia).map Token.leaf)).CommentsApart :=
    fun stop cs raws => commentsApart_weave _ _ (root stop cs raws) loose nofun
  exact (woven _ _ (rawAll_append.mpr ⟨lead, items _⟩)).spell source

end RouteDoc.Code
