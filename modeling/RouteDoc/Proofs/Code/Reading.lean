import Mathlib
import RouteDoc.Proofs.Code.Comments
import RouteDoc.Proofs.Code.Seams

/-!
# What readers give

A reader takes tokens from the front and gives a tree, or it fails. What it gives is stated as a
triple: of tokens that can be read it gives, if anything, a tree of a certain sort, and it leaves
tokens that can be read. Two sorts matter. A raw tree has no comments, and the strings in it leave no
room for any, unless they have an interpolation; a part is a raw tree that may stand for the
interpolation.

The triples of the readers that others are made of are stated here, once for each of them, and are
given to the verification conditions as specifications.

## Main statements

* `Reader.triple_iff`: what a triple says.
* `Reader.iterate_induct`, `Reader.many_induct`: what each step of a repetition keeps.
* `Reader.gives_many`, `Reader.gives_iterate`, `Reader.gives_commaSeparated`: repetitions of readers.
-/

set_option autoImplicit false
set_option mvcgen.warning false

namespace RouteDoc.Code

open Std.Do

/-- Whether a node of that kind is no token, no comment, no piece of text and no string. -/
def Kind.isCommon : Kind → Bool
  | .token | .comment | .stringContent | .encapsedString => false
  | _ => true

/-- Which of two common kinds it is does not matter. -/
@[simp] theorem Kind.isCommon_ite {p : Prop} [Decidable p] {k k' : Kind}
    (common : k.isCommon = true) (common' : k'.isCommon = true) :
    (if p then k else k').isCommon = true := by
  split
  · exact common
  · exact common'

/-- The four kinds that are not common, one by one. -/
theorem Kind.isCommon_iff {k : Kind} : k.isCommon = true ↔
    k ≠ .token ∧ k ≠ .comment ∧ k ≠ .stringContent ∧ k ≠ .encapsedString := by
  cases k <;> decide

namespace Tree

/-! ## Trees as they are read -/

/-- Whether trees stand one right behind the other, from an offset up to another. -/
def Seamless : (start : Nat) → List Tree → (stop : Nat) → Prop
  | start, [], stop => start = stop
  | start, t :: ts, stop => t.start = start ∧ Seamless t.stop ts stop

/-- What holds of a node before comments are woven in: it is none, and a string without a hole
leaves no room for one. -/
structure RawNode (n : Tree) : Prop where
  noComment : n.kind ≠ .comment
  seamless : n.kind = .encapsedString →
    n.children.any fills = true ∨ Seamless n.start n.children n.stop

/-- Whether every node of a tree is as it was before comments were woven in. -/
def Raw (t : Tree) : Prop :=
  ∀ n ∈ t.preorder, n.RawNode

/-- Whether all trees of a list are raw. -/
def RawAll (ts : List Tree) : Prop :=
  ∀ t ∈ ts, t.Raw

/-- A tree that is neither a mark nor a piece of text. -/
structure RawPart (t : Tree) : Prop where
  raw : t.Raw
  fills : t.fills = true

/-- A part is raw, and it can fill a hole. -/
@[simp] theorem rawPart_iff {t : Tree} : t.RawPart ↔ t.Raw ∧ t.fills = true :=
  ⟨fun h => ⟨h.raw, h.fills⟩, fun h => ⟨h.1, h.2⟩⟩

@[simp] theorem rawAll_nil : RawAll [] :=
  List.forall_mem_nil _

@[simp] theorem rawAll_cons {t : Tree} {ts : List Tree} : RawAll (t :: ts) ↔ t.Raw ∧ RawAll ts :=
  List.forall_mem_cons

@[simp] theorem rawAll_reverse {ts : List Tree} : RawAll ts.reverse ↔ RawAll ts := by
  simp only [RawAll, List.mem_reverse]

@[simp] theorem rawAll_append {ts us : List Tree} : RawAll (ts ++ us) ↔ RawAll ts ∧ RawAll us :=
  List.forall_mem_append

theorem raw_node {l : Label} {cs : List Tree} :
    (node l cs).Raw ↔ (node l cs).RawNode ∧ RawAll cs :=
  forall_preorder_node

theorem Raw.root {t : Tree} (h : t.Raw) : t.RawNode :=
  h t (by rw [preorder_eq_cons]; exact List.mem_cons_self)

/-- A node of a common kind is raw if the trees that it is put over are: it is no string. -/
@[simp] theorem raw_over {k : Kind} (common : k.isCommon = true) {cs : List Tree} :
    (Tree.over k cs).Raw ↔ RawAll cs := by
  obtain ⟨-, noComment, -, noString⟩ := Kind.isCommon_iff.mp common
  exact raw_node.trans (and_iff_right ⟨noComment, fun string => absurd string noString⟩)

/-- A role changes neither the kind of a node nor what stands below it. -/
@[simp] theorem raw_withRole {t : Tree} {r : Role} : (t.withRole r).Raw ↔ t.Raw := by
  obtain ⟨l, cs⟩ := t
  rw [withRole, raw_node, raw_node]
  refine and_congr_left fun _ => ⟨fun h => ?_, fun h => ?_⟩
  · exact ⟨h.noComment, h.seamless⟩
  · exact ⟨h.noComment, h.seamless⟩

/-- A leaf of a common kind is raw. -/
@[simp] theorem raw_leafOf {k : Kind} (common : k.isCommon = true) {t : Token} :
    (t.leafOf k).Raw := by
  obtain ⟨-, noComment, -, noString⟩ := Kind.isCommon_iff.mp common
  exact raw_node.mpr ⟨⟨noComment, fun string => absurd string noString⟩, rawAll_nil⟩

/-- A token as a leaf is raw unless it is a comment. -/
@[simp] theorem raw_leaf {t : Token} : t.leaf.Raw ↔ t.kind ≠ .comment := by
  have kinds : t.leafKind ≠ .encapsedString ∧ (t.leafKind ≠ .comment ↔ t.kind ≠ .comment) := by
    unfold Token.leafKind
    cases t.kind <;> decide
  rw [Token.leaf, Token.leafOf, raw_node, ← kinds.2]
  exact ⟨fun h => h.1.noComment, fun h => ⟨⟨h, fun string => absurd string kinds.1⟩, rawAll_nil⟩⟩

/-- What is of a common kind can fill a hole. -/
theorem fills_of_common {l : Label} (common : l.kind.isCommon = true) (cs : List Tree) :
    (node l cs).fills = true := by
  obtain ⟨noToken, noComment, noText, -⟩ := Kind.isCommon_iff.mp common
  show (l.kind != .token && !(l.kind == .comment) && l.kind != .stringContent) = true
  simp [noToken, noComment, noText]

@[simp] theorem fills_over {k : Kind} (common : k.isCommon = true) (cs : List Tree) :
    (Tree.over k cs).fills = true :=
  fills_of_common common cs

@[simp] theorem fills_leafOf {k : Kind} (common : k.isCommon = true) (t : Token) :
    (t.leafOf k).fills = true :=
  fills_of_common common []

end Tree

namespace Reader

/-- A triple without the state of the monad: what holds behind a reader if it reads something. -/
theorem triple_iff {α : Type} {r : Reader α} {P : List Token → Prop}
    {Q : α → List Token → Prop} :
    ⦃fun ts => ⌜P ts⌝⦄ r ⦃⇓? a => fun us => ⌜Q a us⌝⦄ ↔
      ∀ ts, P ts → ∀ a us, r ts = some (a, us) → Q a us := by
  have meaning : ∀ ts, (wp⟦r⟧ (⇓? a => fun us => ⌜Q a us⌝) ts).down ↔
      ∀ a us, r ts = some (a, us) → Q a us := by
    intro ts
    have run : wp⟦r⟧ (⇓? a => fun us => ⌜Q a us⌝) ts = wp⟦r ts⟧ (⇓? p => ⌜Q p.1 p.2⌝) := rfl
    rw [run]
    cases r ts with
    | none => exact ⟨nofun, fun _ => trivial⟩
    | some p => exact ⟨fun h a us same => by cases same; exact h, fun h => h p.1 p.2 rfl⟩
  exact ⟨fun h ts before => (meaning ts).mp (h ts before),
    fun h ts before => (meaning ts).mpr (h ts before)⟩

/-- What a reader gives of tokens that can be read, of which it leaves some that can be read. -/
abbrev Gives {α : Type} (r : Reader α) (Q : α → Prop) : Prop :=
  ⦃fun ts => ⌜Readable ts⌝⦄ r ⦃⇓? a => fun us => ⌜Readable us ∧ Q a⌝⦄

end Reader

/-- What is left of readable tokens can be read. -/
theorem Readable.suffix {ts us : List Token} (h : Readable ts) (suffix : us <:+ ts) : Readable us :=
  ⟨fun t mem => h.noComment t (suffix.subset mem), h.chain.suffix suffix⟩

/-- Gaps in front may be passed over. -/
theorem Readable.afterGaps {ts : List Token} (h : Readable ts) : Readable (Reader.afterGaps ts) :=
  h.suffix (List.dropWhile_suffix _)

/-- Where a token is next behind the gaps, it can be read from there. -/
theorem Readable.front {t : Token} {ts us : List Token} (h : Readable ts)
    (front : Reader.afterGaps ts = t :: us) : Readable (t :: us) := by
  rw [← front]
  exact h.afterGaps

theorem Readable.head {t : Token} {ts : List Token} (h : Readable (t :: ts)) : t.kind ≠ .comment :=
  h.noComment t List.mem_cons_self

theorem Readable.tail {t : Token} {ts : List Token} (h : Readable (t :: ts)) : Readable ts :=
  h.suffix (List.suffix_cons t ts)

namespace Reader

open RouteDoc.Code.Tree

/-- A reader that fails gives whatever one asks. -/
@[spec] theorem gives_failure {α : Type} : Gives (failure : Reader α) fun _ => False :=
  triple_iff.mpr fun _ _ _ _ => nofun

/-- The next token is the one behind the gaps. -/
theorem next_eq_some_iff {t : Token} {ts us : List Token} :
    next ts = some (t, us) ↔ afterGaps ts = t :: us := by
  unfold next
  split
  next front => simp [front]
  next front => simp [front]

/-- The next token is no comment, so as a leaf it is raw. -/
@[spec] theorem gives_next : Gives next fun t => t.kind ≠ .comment := by
  refine triple_iff.mpr fun ts readable t us read => ?_
  have ahead := readable.front (next_eq_some_iff.mp read)
  exact ⟨ahead.tail, ahead.head⟩

/-- To look ahead always succeeds and takes no token. -/
theorem peekAt_eq (n : Nat) (ts : List Token) : ∃ t, peekAt n ts = some (t, ts) := by
  induction n generalizing ts with
  | zero => exact ⟨_, rfl⟩
  | succ n ih =>
    obtain ⟨t, peeked⟩ := ih ((afterGaps ts).drop 1)
    exact ⟨t, by simp only [peekAt, peeked]⟩

/-- A look ahead leaves tokens that can be read. -/
@[spec] theorem gives_peekAt (n : Nat) : Gives (peekAt n) fun _ => True := by
  refine triple_iff.mpr fun ts readable t us read => ?_
  obtain ⟨_, peeked⟩ := peekAt_eq n ts
  cases peeked.symm.trans read
  exact ⟨readable, trivial⟩

@[spec] theorem gives_peek : Gives peek fun _ => True :=
  gives_peekAt 0

/-! ## The next token -/

/-- What a reader gives where a certain token is next. -/
abbrev GivesAt {α : Type} (t : Token) (r : Reader α) (Q : α → Prop) : Prop :=
  ⦃fun ts => ⌜Readable ts ∧ (afterGaps ts).head? = some t⌝⦄ r
  ⦃⇓? a => fun us => ⌜Readable us ∧ Q a⌝⦄

/-- What a reader always gives, it gives where a certain token is next. -/
theorem Gives.at {α : Type} {r : Reader α} {Q : α → Prop} (h : Gives r Q) (t : Token) :
    GivesAt t r Q :=
  triple_iff.mpr fun ts before => triple_iff.mp h ts before.1

/-- A triple may be weakened in what is given. -/
theorem Gives.mono {α : Type} {r : Reader α} {P Q : α → Prop} (h : Gives r P)
    (weaker : ∀ a, P a → Q a) : Gives r Q := by
  refine triple_iff.mpr fun ts readable a us read => ?_
  obtain ⟨left, given⟩ := triple_iff.mp h ts readable a us read
  exact ⟨left, weaker a given⟩

/-- To read nothing leaves the tokens as they are. -/
theorem gives_pure {α : Type} {a : α} {Q : α → Prop} (given : Q a) : Gives (pure a) Q := by
  refine triple_iff.mpr fun ts readable b us read => ?_
  cases read
  exact ⟨readable, given⟩

/-- Two readers in a row, of which the second may use what the first one gives. -/
theorem gives_bind {α β : Type} {r : Reader α} {f : α → Reader β} {P : α → Prop} {Q : β → Prop}
    (first : Gives r P) (rest : ∀ a, P a → Gives (f a) Q) : Gives (r >>= f) Q := by
  refine triple_iff.mpr fun ts readable b us read => ?_
  obtain ⟨⟨a, vs⟩, started, read⟩ := Option.bind_eq_some_iff.mp read
  obtain ⟨left, given⟩ := triple_iff.mp first ts readable a vs started
  exact triple_iff.mp (rest a given) vs left b us read

/-- Both ways of a choice have to give it, whatever decides. -/
theorem gives_ite {α : Type} {c : Prop} [Decidable c] {r r' : Reader α} {Q : α → Prop}
    (yes : Gives r Q) (no : Gives r' Q) : Gives (if c then r else r') Q := by
  split
  · exact yes
  · exact no

/-- A look at the next token comes before what hangs on it. -/
theorem gives_peek_bind {α : Type} {f : Option Token → Reader α} {Q : α → Prop}
    (none : Gives (f none) Q) (some : ∀ t, GivesAt t (f (some t)) Q) : Gives (peek >>= f) Q := by
  refine triple_iff.mpr fun ts readable a us read => ?_
  change f (afterGaps ts).head? ts = _ at read
  cases next : (afterGaps ts).head? with
  | none =>
    rw [next] at read
    exact triple_iff.mp none ts readable a us read
  | some t =>
    rw [next] at read
    exact triple_iff.mp (some t) ts ⟨readable, next⟩ a us read

/-- Where a token is next, it is the one that is taken, and it is no comment. -/
theorem givesAt_next_bind {α : Type} {t : Token} {f : Token → Reader α} {Q : α → Prop}
    (rest : t.kind ≠ .comment → Gives (f t) Q) : GivesAt t (next >>= f) Q := by
  refine triple_iff.mpr fun ts before a us read => ?_
  obtain ⟨readable, ahead⟩ := before
  obtain ⟨r, front⟩ := List.head?_eq_some_iff.mp ahead
  have left := readable.front front
  change (next ts).bind _ = _ at read
  rw [next_eq_some_iff.mpr front] at read
  exact triple_iff.mp (rest left.head) r left.tail a us read

/-- A question on the next token is a look ahead. -/
@[spec] theorem gives_nextIs (p : Token → Bool) : Gives (nextIs p) fun _ => True := by
  mvcgen [nextIs]

@[spec] theorem gives_atSymbol (s : String) : Gives (atSymbol s) fun _ => True :=
  gives_nextIs _

@[spec] theorem gives_atKeyword (s : String) : Gives (atKeyword s) fun _ => True :=
  gives_nextIs _

@[spec] theorem gives_atOneOf (words : List String) : Gives (atOneOf words) fun _ => True :=
  gives_nextIs _

@[spec] theorem gives_symbolAt (n : Nat) (s : String) : Gives (symbolAt n s) fun _ => True := by
  mvcgen [symbolAt]

@[spec] theorem gives_keywordAt (n : Nat) (s : String) : Gives (keywordAt n s) fun _ => True := by
  mvcgen [keywordAt]

@[spec] theorem gives_wordAt (n : Nat) : Gives (wordAt n) fun _ => True := by
  mvcgen [wordAt]

/-- What is taken is a leaf, and no comment. -/
@[spec] theorem gives_take (p : Token → Bool) : Gives (take p) Raw := by
  mvcgen [take]
  all_goals simp_all

@[spec] theorem gives_symbol (s : String) : Gives (symbol s) Raw :=
  gives_take _

@[spec] theorem gives_keyword (s : String) : Gives (keyword s) Raw :=
  gives_take _

/-- A word is a leaf of the kind of names, which is a common one. -/
@[spec] theorem gives_name : Gives name RawPart := by
  mvcgen [name]
  all_goals simp_all +decide

/-! ## Repetition -/

/-- What each step keeps holds behind all of them. -/
theorem iterate_induct {α : Type} {step : α → Reader (Option α)} {P : α → List Token → Prop}
    (keeps : ∀ a ts o us, P a ts → step a ts = some (o, us) → P (o.getD a) us) {a : α}
    {ts : List Token} (before : P a ts) :
    ∀ b us, iterate step a ts = some (b, us) → P b us := by
  have go : ∀ n a ts, P a ts → ∀ b us, iterate.go step n a ts = some (b, us) → P b us := by
    intro n
    induction n with
    | zero => exact fun _ _ _ _ _ => nofun
    | succ n ih =>
      intro a ts before b us read
      obtain ⟨⟨o, vs⟩, stepped, read⟩ := Option.bind_eq_some_iff.mp read
      have kept := keeps a ts o vs before stepped
      cases o with
      | none => cases read; exact kept
      | some c => exact ih c vs kept b us read
  exact go _ a ts before

/-- What each item keeps, and the question whether one begins, holds behind all of them. -/
theorem many_induct {begins : Reader Bool} {item : Reader (List Tree)}
    {P : List Tree → List Token → Prop}
    (begins_keeps : ∀ ps ts b us, P ps ts → begins ts = some (b, us) → P ps us)
    (item_keeps : ∀ ps ts qs us, P ps ts → item ts = some (qs, us) → P (ps ++ qs) us)
    {ts : List Token} (before : P [] ts) :
    ∀ ps us, many begins item ts = some (ps, us) → P ps us := by
  intro ps us read
  obtain ⟨⟨items, vs⟩, iterated, read⟩ := Option.bind_eq_some_iff.mp read
  cases read
  refine iterate_induct (P := fun acc ts => P acc.reverse ts) ?_ before items us iterated
  intro acc ts o us before read
  obtain ⟨⟨b, vs⟩, begun, read⟩ := Option.bind_eq_some_iff.mp read
  have kept := begins_keeps _ _ _ _ before begun
  cases b with
  | false => cases read; exact kept
  | true =>
    obtain ⟨⟨qs, vs⟩, given, read⟩ := Option.bind_eq_some_iff.mp read
    cases read
    have := item_keeps _ _ _ _ kept given
    simpa using this

/-- If all items are raw, so is their list. -/
@[spec] theorem gives_many {begins : Reader Bool} {item : Reader (List Tree)}
    (begun : Gives begins fun _ => True) (items : Gives item RawAll) :
    Gives (many begins item) RawAll := by
  refine triple_iff.mpr fun ts readable => ?_
  refine many_induct (fun ps ts b us before read => ?_) (fun ps ts qs us before read => ?_)
    ⟨readable, rawAll_nil⟩
  · exact ⟨(triple_iff.mp begun ts before.1 b us read).1, before.2⟩
  · obtain ⟨left, raw⟩ := triple_iff.mp items ts before.1 qs us read
    exact ⟨left, rawAll_append.mpr ⟨before.2, raw⟩⟩

/-- A chain that grows link by link is a part from the first to the last. -/
@[spec] theorem gives_iterate {step : Tree → Reader (Option Tree)} {t : Tree} (first : RawPart t)
    (steps : ∀ t, RawPart t → Gives (step t) fun o => ∀ u ∈ o, RawPart u) :
    Gives (iterate step t) RawPart := by
  refine triple_iff.mpr fun ts readable => ?_
  refine iterate_induct (fun t ts o us before read => ?_) ⟨readable, first⟩
  obtain ⟨left, part⟩ := triple_iff.mp (steps t before.2) ts before.1 o us read
  cases o with
  | none => exact ⟨left, before.2⟩
  | some u => exact ⟨left, part u rfl⟩

/-- What may be left out gives an empty list. -/
@[spec] theorem gives_when {begins : Reader Bool} {read : Reader (List Tree)}
    (begun : Gives begins fun _ => True) (given : Gives read RawAll) :
    Gives (when begins read) RawAll := by
  mvcgen [when, begun, given]
  all_goals simp_all

@[spec] theorem gives_symbol? (s : String) : Gives (symbol? s) RawAll := by
  mvcgen [symbol?]
  all_goals simp_all

@[spec] theorem gives_keyword? (s : String) : Gives (keyword? s) RawAll := by
  mvcgen [keyword?]
  all_goals simp_all

@[spec] theorem gives_manyUntil (close : String) {item : Reader (List Tree)}
    (items : Gives item RawAll) : Gives (manyUntil close item) RawAll := by
  mvcgen [manyUntil, items]

/-- The commas are leaves among the items. -/
@[spec] theorem gives_commaSeparated (close : String) {item : Reader Tree}
    (items : Gives item Raw) : Gives (commaSeparated close item) RawAll := by
  mvcgen [commaSeparated, items]
  all_goals simp_all

@[spec] theorem gives_commaList {item : Reader Tree} (items : Gives item Raw) :
    Gives (commaList item) RawAll := by
  mvcgen [commaList, items]
  all_goals simp_all

/-! ## Ends -/

/-- A statement may also end with the code, where no token is left to take. -/
@[spec] theorem gives_semicolon : Gives semicolon RawAll := by
  refine triple_iff.mpr fun ts readable t us read => ?_
  cases ts with
  | nil => cases read; exact ⟨readable, rawAll_nil⟩
  | cons t ts =>
    simp only [semicolon] at read
    split_ifs at read
    cases read
    have noComment := readable.noComment t List.mem_cons_self
    exact ⟨readable.tail, by simp [noComment]⟩

/-- Whether a statement ends is seen without passing over gaps. -/
@[spec] theorem gives_atEnd : Gives atEnd fun _ => True := by
  refine triple_iff.mpr fun ts readable t us read => ?_
  cases read
  exact ⟨readable, trivial⟩

/-- A number that is cut leaves tokens that can be read. -/
@[spec] theorem gives_cutPoint : Gives cutPoint fun _ => True := by
  refine triple_iff.mpr fun ts readable t us read => ?_
  cases ts with
  | nil => cases read; exact ⟨readable, trivial⟩
  | cons t ts =>
    simp only [cutPoint] at read
    split at read
    next point number cut =>
      cases read
      unfold Token.atPoint? at cut
      split at cut
      swap
      · contradiction
      cases cut
      -- The part behind the point is a number or a name, behind which no text goes on.
      refine ⟨⟨List.forall_mem_cons.mpr ⟨nofun, List.forall_mem_cons.mpr ⟨?_, ?_⟩⟩,
        List.isChain_cons.mpr ⟨fun _ _ text => absurd text Bool.false_ne_true,
          List.isChain_cons.mpr ⟨fun _ _ text => ?_, readable.tail.chain⟩⟩⟩, trivial⟩
      · dsimp only
        split <;> exact nofun
      · exact readable.tail.noComment
      · revert text
        dsimp only
        split <;> exact nofun
    next => cases read; exact ⟨readable, trivial⟩

/-- The tokens up to the end of a statement are leaves. -/
@[spec] theorem gives_untilEnd : Gives untilEnd RawAll := by
  mvcgen [untilEnd]
  all_goals simp_all

/-- The second reader starts where the first one did, so it reads the same tokens. -/
@[spec] theorem gives_orElse {r r' : Reader Tree} {Q : Tree → Prop} (h : Gives r Q)
    (h' : Gives r' Q) : Gives (r <|> r') Q := by
  refine triple_iff.mpr fun ts readable t us read => ?_
  have either : r ts = some (t, us) ∨ r' ts = some (t, us) := by
    change (r ts <|> r' ts) = some (t, us) at read
    cases first : r ts with
    | some p => rw [first] at read; exact .inl read
    | none => rw [first] at read; exact .inr read
  rcases either with read | read
  · exact triple_iff.mp h ts readable t us read
  · exact triple_iff.mp h' ts readable t us read

end Reader

end RouteDoc.Code
