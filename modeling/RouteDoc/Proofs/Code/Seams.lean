import Mathlib.Data.List.Chain
import RouteDoc.Code.Parse

/-!
# Where the text of a string begins and goes on

A string may hold pieces of text and interpolations. Behind the quote that opens it, and behind each
piece of text in it, the scanner goes on at once: the next token begins where the last one ends, and
it is neither a comment nor an island between two stretches of code. So no comment has room there.

## Main statements

* `Scan.joined_step`: what one step of the scanner gives.
* `Scan.chain_tokens`: all tokens of a source.
* `readable_tokens`: the tokens that are left without trivia, which are those that the grammar reads.
-/

set_option autoImplicit false

namespace RouteDoc.Code

namespace TokenKind

/-- Whether text may go on right behind a token. -/
def beforeText (k : TokenKind) : Bool :=
  k == .quoteOpen || k == .fragment

/-- Whether a token is more than a comment or a bound of code. -/
def isInk (k : TokenKind) : Bool :=
  k != .comment && k != .island && k != .gap

end TokenKind

/-- The second token may follow the first. -/
def Token.Follows (a b : Token) : Prop :=
  a.kind.beforeText = true → b.start = a.stop ∧ b.kind.isInk = true

namespace Scan

/-- Whether the innermost construct holds text. -/
def holdsText : List Mode → Bool
  | .quote :: _ | .shell :: _ | .document _ :: _ => true
  | _ => false

/-- Whether there is ink at once: in the first lexeme, or behind no lexemes in what is open. -/
def inksAtOnce (modes : List Mode) : List Lexeme → Bool
  | [] => holdsText modes
  | (some k, _) :: _ => k.isInk
  | (none, _) :: _ => false

/-- Lexemes among which there is ink at once behind each that text may follow. -/
def Joined (modes : List Mode) : List Lexeme → Prop
  | [] => True
  | (k, _) :: more =>
    (k.any TokenKind.beforeText = true → inksAtOnce modes more = true) ∧ Joined modes more

/-- Tokens from an offset on. -/
structure Chained (offset : Nat) (inked : Bool) (ts : List Token) : Prop where
  chain : ts.IsChain Token.Follows
  first : inked = true → ∀ t ∈ ts.head?, t.start = offset ∧ t.kind.isInk = true

/-- Tokens that are cut off as joined lexemes follow one another, and so does what comes behind
them. -/
theorem chained_cut {modes : List Mode} (lexemes : List Lexeme) (offset : Nat) (s : List Char)
    (joined : Joined modes lexemes) (ts : List Token)
    (rest : Chained (cut lexemes offset s).2.1 (holdsText modes) ts) :
    Chained offset (inksAtOnce modes lexemes) ((cut lexemes offset s).1 ++ ts) := by
  induction lexemes generalizing offset s with
  | nil => exact rest
  | cons lexeme more ih =>
    obtain ⟨kind, n⟩ := lexeme
    obtain ⟨here, joined⟩ := joined
    cases kind with
    | none => exact ⟨(ih (offset + bytes (s.take n)) (s.drop n) joined rest).chain, nofun⟩
    | some k =>
      have behind := ih (offset + bytes (s.take n)) (s.drop n) joined rest
      refine ⟨List.isChain_cons.mpr ⟨fun t first text => ?_, behind.chain⟩, ?_⟩
      · exact behind.first (here text) t first
      · rintro ink _ ⟨⟩
        exact ⟨rfl, ink⟩

/-! ## One step -/

/-- Lexemes behind which no text goes on. -/
theorem joined_of_textless {modes : List Mode} {lexemes : List Lexeme}
    (textless : ∀ lexeme ∈ lexemes, lexeme.1.any TokenKind.beforeText = false) :
    Joined modes lexemes := by
  induction lexemes with
  | nil => trivial
  | cons lexeme more ih =>
    obtain ⟨here, behind⟩ := List.forall_mem_cons.mp textless
    refine ⟨fun text => ?_, ih behind⟩
    rw [here] at text
    contradiction

/-- One lexeme behind which no text goes on. -/
theorem joined_single {modes : List Mode} {lexeme : Lexeme}
    (textless : lexeme.1.any TokenKind.beforeText = false) : Joined modes [lexeme] :=
  joined_of_textless (List.forall_mem_singleton.mpr textless)

/-- One lexeme behind which text may go on. -/
theorem joined_text {modes : List Mode} (k : TokenKind) (n : Nat) (text : holdsText modes = true) :
    Joined modes [(some k, n)] :=
  ⟨fun _ => text, trivial⟩

/-- No text goes on behind a number. -/
theorem number_textless (s : List Char) : (number s).1.any TokenKind.beforeText = false := by
  have either : ∀ (p : Prop) [Decidable p],
      (some (if p then TokenKind.integer else .float)).any TokenKind.beforeText = false := by
    intro p _
    split <;> rfl
  unfold number
  split
  · split
    · rfl
    · exact either _
  · exact either _

/-- In code, text follows just behind what opens it. -/
theorem joined_codeStep (modes : List Mode) (c : Char) (cs : List Char) :
    Joined (codeStep modes c cs).2 (codeStep modes c cs).1 := by
  unfold codeStep
  dsimp only
  -- What opens text is followed by it, and nothing else in code has text behind it.
  repeat' split
  all_goals first
    | exact joined_single rfl
    | exact joined_single (number_textless _)
    | exact joined_text _ _ rfl

/-- An arrow in a text comes with the name of a member, and no text behind either. -/
theorem arrow?_textless {s : List Char} {lexemes : List Lexeme} (found : arrow? s = some lexemes) :
    ∀ lexeme ∈ lexemes, lexeme.1.any TokenKind.beforeText = false := by
  have member : ∀ width r, arrow?.member width r = some lexemes →
      ∀ lexeme ∈ lexemes, lexeme.1.any TokenKind.beforeText = false := by
    intro width r found
    rw [arrow?.member] at found
    split at found
    · cases found
      simp [TokenKind.beforeText]
    · contradiction
  unfold arrow? at found
  split at found
  · exact member _ _ found
  · exact member _ _ found
  · contradiction

/-- An offset in brackets has no text behind any of its parts. -/
theorem bracketed?_textless {s : List Char} {lexemes : List Lexeme}
    (found : bracketed? s = some lexemes) :
    ∀ lexeme ∈ lexemes, lexeme.1.any TokenKind.beforeText = false := by
  unfold bracketed? at found
  split at found
  swap
  · contradiction
  dsimp only at found
  repeat' split at found
  all_goals first
    | contradiction
    | cases found
  all_goals simp [TokenKind.beforeText]

/-- Whichever access follows a variable in a text, no text goes on behind any part of it. -/
theorem access_textless (s : List Char) :
    ∀ lexeme ∈ ((bracketed? s).or (arrow? s)).getD [],
      lexeme.1.any TokenKind.beforeText = false := by
  cases brackets : bracketed? s with
  | some lexemes => exact bracketed?_textless brackets
  | none =>
    cases arrow : arrow? s with
    | some lexemes => exact arrow?_textless arrow
    | none => exact List.forall_mem_nil _

/-- A step at an interpolation gives ink at once, and no text behind it. -/
theorem holeStep_cases (modes : List Mode) (s : List Char) (opens : opensHole s = true) :
    (∀ lexeme ∈ (holeStep modes s).1, lexeme.1.any TokenKind.beforeText = false) ∧
      ∀ modes', inksAtOnce modes' (holeStep modes s).1 = true := by
  unfold holeStep
  split
  · exact ⟨List.forall_mem_singleton.mpr rfl, fun _ => rfl⟩
  · exact ⟨by simp [TokenKind.beforeText], fun _ => rfl⟩
  · refine ⟨List.forall_mem_append.mpr ⟨?_, access_textless _⟩, fun _ => rfl⟩
    simp [TokenKind.beforeText]
  · contradiction

/-- A step within a text closes it, begins a hole or goes on with it, and there is ink at once in
each case. -/
theorem textStep_cases (kind : TokenKind) (close : Char) (modes up : List Mode) (s : List Char)
    (text : holdsText modes = true) (ends : kind.beforeText = false ∧ kind.isInk = true) :
    Joined (textStep kind close modes up s).2 (textStep kind close modes up s).1 ∧
      inksAtOnce (textStep kind close modes up s).2 (textStep kind close modes up s).1 = true := by
  unfold textStep
  split
  · exact ⟨joined_single ends.1, ends.2⟩
  split
  next opens =>
    obtain ⟨textless, ink⟩ := holeStep_cases modes s opens
    exact ⟨joined_of_textless textless, ink _⟩
  next => exact ⟨joined_text _ _ text, rfl⟩

/-- In a text there is ink at once, and again at once behind each piece of it. -/
theorem joined_step (modes : List Mode) (c : Char) (cs : List Char) :
    Joined (step modes c cs).2 (step modes c cs).1 ∧
    (holdsText modes = true → inksAtOnce (step modes c cs).2 (step modes c cs).1 = true) := by
  unfold step
  split
  next up =>
    obtain ⟨joined, ink⟩ :=
      textStep_cases .quoteClose '"' (.quote :: up) up (c :: cs) rfl (by decide)
    exact ⟨joined, fun _ => ink⟩
  next up =>
    obtain ⟨joined, ink⟩ :=
      textStep_cases .shellQuote '\x60' (.shell :: up) up (c :: cs) rfl (by decide)
    exact ⟨joined, fun _ => ink⟩
  next label up =>
    unfold documentStep
    split
    next opens =>
      obtain ⟨textless, ink⟩ := holeStep_cases (.document label :: up) (c :: cs) opens
      exact ⟨joined_of_textless textless, fun _ => ink _⟩
    next =>
      split
      · exact ⟨⟨fun _ => rfl, joined_single rfl⟩, fun _ => rfl⟩
      · exact ⟨joined_text _ _ rfl, fun _ => rfl⟩
  next quote shell document =>
    refine ⟨joined_codeStep modes c cs, fun text => ?_⟩
    unfold holdsText at text
    split at text
    · exact absurd rfl (quote _)
    · exact absurd rfl (shell _)
    · exact absurd rfl (document _ _)
    · contradiction

/-! ## The whole text -/

/-- The tokens from any place on follow one another. -/
theorem chained_tokensFrom (fuel : Nat) (modes : List Mode) (offset : Nat) (s : List Char) :
    Chained offset (holdsText modes) (tokensFrom fuel modes offset s) := by
  induction fuel generalizing modes offset s with
  | zero => exact ⟨.nil, fun _ => nofun⟩
  | succ fuel ih =>
    cases s with
    | nil => exact ⟨.nil, fun _ => nofun⟩
    | cons c cs =>
      obtain ⟨joined, ink⟩ := joined_step modes c cs
      have chained := chained_cut (step modes c cs).1 offset (c :: cs) joined _
        (ih (step modes c cs).2 _ (cut (step modes c cs).1 offset (c :: cs)).2.2)
      exact ⟨chained.chain, fun text => chained.first (ink text)⟩

/-- **Behind the beginning of a text, and behind each piece of it, the scanner goes on at once.** -/
theorem chain_tokens (source : String) : (tokens source).IsChain Token.Follows := by
  let lexeme (n : Nat) : List Lexeme := if n = 0 then [] else [(some .outside, n)]
  have textless : ∀ n, ∀ l ∈ lexeme n, l.1.any TokenKind.beforeText = false := by
    intro n
    by_cases none : n = 0
    · simp [lexeme, none]
    · simp [lexeme, none, TokenKind.beforeText]
  exact (chained_cut _ 0 source.toList
    (joined_of_textless (List.forall_mem_append.mpr ⟨textless _, textless _⟩)) _
    (chained_tokensFrom _ [] _ _)).chain

end Scan

/-! ## Without trivia -/

/-- Tokens that can be read: no comments, and no gap where a text goes on. -/
structure Readable (ts : List Token) : Prop where
  noComment : ∀ t ∈ ts, t.kind ≠ .comment
  chain : ts.IsChain Token.Follows

/-- What follows at once is still next when trivia are left out, for it is none. -/
theorem follows_significant {a : Token} {ts : List Token}
    (chain : (a :: ts).IsChain Token.Follows) :
    ∀ b ∈ (significant ts).head?, a.Follows b := by
  cases ts with
  | nil => exact nofun
  | cons c cs =>
    intro b first text
    obtain ⟨next, ink⟩ := (List.isChain_cons_cons.mp chain).1 text
    have noIsland : (c.kind == .island) = false := by
      cases kind : c.kind <;> rw [kind] at ink <;> first | rfl | contradiction
    have noComment : (c.kind == .comment) = false := by
      cases kind : c.kind <;> rw [kind] at ink <;> first | rfl | contradiction
    rw [significant, noIsland, noComment] at first
    cases first
    exact ⟨next, ink⟩

/-- Tokens that follow one another can be read once trivia are left out. -/
theorem readable_significant {ts : List Token} (chain : ts.IsChain Token.Follows) :
    Readable (significant ts) := by
  induction ts with
  | nil => exact ⟨List.forall_mem_nil _, .nil⟩
  | cons t ts ih =>
    obtain ⟨noComment, chained⟩ := ih chain.tail
    rw [significant]
    split
    · refine ⟨List.forall_mem_cons.mpr ⟨nofun, noComment⟩, ?_⟩
      exact List.isChain_cons.mpr ⟨fun _ _ text => absurd text Bool.false_ne_true, chained⟩
    split
    · exact ⟨noComment, chained⟩
    next other =>
      refine ⟨List.forall_mem_cons.mpr ⟨by simpa using other, noComment⟩, ?_⟩
      exact List.isChain_cons.mpr ⟨follows_significant chain, chained⟩

/-- **The grammar reads tokens that can be read.** -/
theorem readable_tokens (source : String) : Readable (significant (Scan.tokens source)) :=
  readable_significant (Scan.chain_tokens source)

end RouteDoc.Code
