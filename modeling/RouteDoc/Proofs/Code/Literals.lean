import Mathlib.Data.String.Basic
import RouteDoc.Code.Cursor
import RouteDoc.Code.Parse
import RouteDoc.Proofs.Text.Spans

/-!
# String literals in a source

A source that holds one string literal and nothing else is scanned and read down to the node of the
literal. Where the scanner takes the text between the quotes as a whole, the node has the text of
the whole literal; one in double quotes has one part, or none if nothing stands between its quotes.

## Main statements

* `tokensFrom_whole`: a step of the scanner that takes one text as one token.
* `literal?_single`, `literal?_double`: the node of the literal.
-/

set_option autoImplicit false

namespace RouteDoc.Code

/-- The mark that opens code. -/
def opening : List Char := ['<', '?', 'p', 'h', 'p']

/-- What may stand in front of a literal to mark it as binary, or nothing. -/
def marks : List (List Char) := [[], ['b'], ['B']]

/-- The text of a literal. -/
def literal (mark : List Char) (quote : Char) (body : List Char) : List Char :=
  mark ++ quote :: (body ++ [quote])

/-- A source that holds one expression. -/
def sourceOf (text : List Char) : String :=
  String.ofList (opening ++ ' ' :: (text ++ [';']))

namespace Scan

open Token

/-- Offsets count bytes as the core library does. -/
theorem bytes_eq (s : List Char) : bytes s = String.utf8Len s := by
  have sum : ∀ n, s.foldl (fun n c => n + c.utf8Size) n = n + String.utf8Len s := by
    induction s with
    | nil => intro n; rfl
    | cons c s ih =>
      intro n
      rw [List.foldl_cons, ih, String.utf8Len_cons]
      omega
  exact (sum 0).trans (Nat.zero_add _)

/-- A single lexeme takes its text and leaves the rest. -/
theorem cut_whole (k : TokenKind) (offset : Nat) (text rest : List Char) :
    cut [(some k, text.length)] offset (text ++ rest) =
      ([⟨k, offset, offset + bytes text, String.ofList text⟩], offset + bytes text, rest) := by
  simp [cut]

/-- A step that takes one text as one token. -/
theorem tokensFrom_whole {modes up : List Mode} {k : TokenKind} {c : Char} {cs : List Char}
    (text rest : List Char) (front : c :: cs = text ++ rest) (taken : step modes c cs = ([(some k, text.length)], up))
    (fuel offset : Nat) :
    tokensFrom (fuel + 1) modes offset (text ++ rest) =
      ⟨k, offset, offset + bytes text, String.ofList text⟩ ::
        tokensFrom fuel up (offset + bytes text) rest := by
  rw [← front, tokensFrom, taken, front]
  simp only [cut_whole]
  rfl

theorem tokensFrom_nil (fuel : Nat) (modes : List Mode) (offset : Nat) :
    tokensFrom fuel modes offset [] = [] := by
  cases fuel <;> rfl

/-- The scanner gets past the mark that opens code and the blank behind it. -/
theorem tokens_opening {rest : List Char} (ink : ∀ c ∈ rest.head?, isSpace c = false) :
    tokens (String.ofList (opening ++ ' ' :: rest)) =
      ⟨.outside, 0, 5, String.ofList opening⟩ :: tokensFrom rest.length [] 6 rest := by
  have opens : outside (opening ++ ' ' :: rest) = (0, 5) := rfl
  have lead : cut [(some .outside, 5)] 0 (opening ++ ' ' :: rest) =
      ([⟨.outside, 0, 5, String.ofList opening⟩], 5, ' ' :: rest) :=
    cut_whole .outside 0 opening _
  have blank : count isSpace (' ' :: rest) = 1 := by
    have one : (' ' :: rest).takeWhile isSpace = [' '] :=
      Text.takeWhile_append_of_stop (s := [' ']) (by decide) ink
    rw [count, one]
    rfl
  have passed : step [] ' ' rest = ([(none, 1)], []) := by
    rw [← blank]
    rfl
  have behind : tokensFrom (rest.length + 1) [] 5 (' ' :: rest) =
      tokensFrom rest.length [] 6 rest := by
    rw [tokensFrom, passed]
    rfl
  rw [tokens, String.toList_ofList, ← behind]
  simp [opens, lead]

/-- A literal in single quotes is one token if the text in it ends at the closing quote. -/
theorem step_single {mark body rest : List Char} (marked : mark ∈ marks)
    (whole : singleQuoted (body ++ '\'' :: rest) = body.length + 1) :
    ∃ c cs, c :: cs = literal mark '\'' body ++ rest ∧ isSpace c = false ∧
      step [] c cs = ([(some .string, (literal mark '\'' body).length)], []) := by
  have width : (literal mark '\'' body).length =
      mark.length + 1 + singleQuoted (body ++ '\'' :: rest) := by
    rw [whole, literal]
    simp
    omega
  rw [width]
  rcases List.mem_cons.mp marked with rfl | marked
  · exact ⟨'\'', body ++ '\'' :: rest, by simp [literal], by decide, rfl⟩
  rcases List.mem_cons.mp marked with rfl | marked
  · exact ⟨'b', '\'' :: (body ++ '\'' :: rest), by simp [literal], by decide, rfl⟩
  · obtain rfl := List.mem_singleton.mp marked
    exact ⟨'B', '\'' :: (body ++ '\'' :: rest), by simp [literal], by decide, rfl⟩

/-- The quote that opens a literal in double quotes, with the mark in front. -/
theorem step_quoteOpen {mark : List Char} (marked : mark ∈ marks) (rest : List Char) :
    ∃ c cs, c :: cs = mark ++ ['"'] ++ rest ∧ isSpace c = false ∧
      step [] c cs = ([(some .quoteOpen, (mark ++ ['"']).length)], [.quote]) := by
  rcases List.mem_cons.mp marked with rfl | marked
  · exact ⟨'"', rest, rfl, by decide, rfl⟩
  rcases List.mem_cons.mp marked with rfl | marked
  · exact ⟨'b', '"' :: rest, rfl, by decide, rfl⟩
  · obtain rfl := List.mem_singleton.mp marked
    exact ⟨'B', '"' :: rest, rfl, by decide, rfl⟩

/-- A text that stands for itself is one token up to the closing quote. -/
theorem step_fragment {c : Char} {body rest : List Char}
    (whole : plain '"' (c :: body ++ rest) = (c :: body).length) :
    step [.quote] c (body ++ rest) = ([(some .fragment, (c :: body).length)], [.quote]) := by
  have starts : c ≠ '"' ∧ opensHole (c :: body ++ rest) = false := by
    by_cases escape : c = '\\'
    · subst escape
      exact ⟨by decide, rfl⟩
    · rw [List.cons_append, plain.eq_3 _ _ _ (fun _ _ same => absurd same escape)] at whole
      split at whole
      · cases whole
      next goes =>
        simp only [Bool.or_eq_true, beq_iff_eq, not_or, Bool.not_eq_true] at goes
        exact goes
  show textStep _ _ _ _ (c :: body ++ rest) = _
  rw [textStep, if_neg (by simpa using starts.1), if_neg (Bool.not_eq_true _ ▸ starts.2), whole]

theorem step_quoteClose (rest : List Char) :
    step [.quote] '"' rest = ([(some .quoteClose, 1)], []) := rfl

theorem step_semicolon : step [] ';' [] = ([(some .symbol, 1)], []) := by
  decide

/-- The token for a text that stands for itself, unless it is empty. -/
def fragments (offset : Nat) : List Char → List Token
  | [] => []
  | c :: body => [⟨.fragment, offset, offset + bytes (c :: body), String.ofList (c :: body)⟩]

/-- Text without a hole is one fragment, and the scanner is at the quote behind it. -/
theorem tokensFrom_body {body rest : List Char}
    (whole : plain '"' (body ++ '"' :: rest) = body.length) (fuel offset : Nat) :
    tokensFrom (body.length + fuel) [.quote] offset (body ++ '"' :: rest) =
      fragments offset body ++ tokensFrom (body.length - 1 + fuel) [.quote] (offset + bytes body)
        ('"' :: rest) := by
  cases body with
  | nil => rfl
  | cons c body =>
    rw [List.length_cons, Nat.succ_add, tokensFrom_whole (c :: body) _ rfl (step_fragment whole)]
    rfl

/-- The tokens of a source with a literal in single quotes. -/
theorem tokens_single {mark body : List Char} (marked : mark ∈ marks)
    (whole : singleQuoted (body ++ ['\'', ';']) = body.length + 1) :
    let text := literal mark '\'' body
    tokens (sourceOf text) = [⟨.outside, 0, 5, String.ofList opening⟩,
      ⟨.string, 6, 6 + bytes text, String.ofList text⟩,
      ⟨.symbol, 6 + bytes text, 6 + bytes text + 1, String.ofList [';']⟩] := by
  intro text
  obtain ⟨c, cs, front, ink, taken⟩ := step_single marked whole
  have first : ∀ x ∈ (text ++ [';']).head?, isSpace x = false := by
    rw [← front]
    rintro _ ⟨⟩
    exact ink
  rw [sourceOf, tokens_opening first, List.length_append, List.length_singleton,
    tokensFrom_whole _ _ front taken]
  obtain ⟨more, fuel⟩ : ∃ more, text.length = more + 1 := by
    refine ⟨mark.length + body.length + 1, ?_⟩
    simp [text, literal]
    omega
  rw [fuel]
  have last := tokensFrom_whole [';'] [] rfl step_semicolon more
    (6 + bytes text)
  rw [tokensFrom_nil] at last
  exact congrArg (_ :: _ :: ·) last

/-- The tokens of a source with a literal in double quotes. -/
theorem tokens_double {mark body : List Char} (marked : mark ∈ marks)
    (whole : plain '"' (body ++ ['"', ';']) = body.length) :
    let start := 6 + bytes (mark ++ ['"'])
    let stop := start + bytes body
    tokens (sourceOf (literal mark '"' body)) = ⟨.outside, 0, 5, String.ofList opening⟩ ::
      ⟨.quoteOpen, 6, start, String.ofList (mark ++ ['"'])⟩ :: (fragments start body ++
        [⟨.quoteClose, stop, stop + 1, String.ofList ['"']⟩,
          ⟨.symbol, stop + 1, stop + 2, String.ofList [';']⟩]) := by
  intro start stop
  have text : literal mark '"' body ++ [';'] = mark ++ ['"'] ++ (body ++ ['"', ';']) := by
    simp [literal]
  obtain ⟨c, cs, front, ink, taken⟩ := step_quoteOpen marked (body ++ ['"', ';'])
  have first : ∀ x ∈ (mark ++ ['"'] ++ (body ++ ['"', ';'])).head?, isSpace x = false := by
    rw [← front]
    rintro _ ⟨⟩
    exact ink
  have fuel : (mark ++ ['"'] ++ (body ++ ['"', ';'])).length = body.length + (mark.length + 2) + 1 := by
    simp
    omega
  have close := tokensFrom_whole ['"'] [';'] rfl (step_quoteClose [';'])
    (body.length - 1 + (mark.length + 1)) stop
  have last := tokensFrom_whole [';'] [] rfl step_semicolon
    (body.length - 1 + mark.length) (stop + 1)
  rw [tokensFrom_nil] at last
  rw [sourceOf, text, tokens_opening first, fuel, tokensFrom_whole _ _ front taken,
    tokensFrom_body whole]
  exact congrArg (fun ts => _ :: _ :: (fragments start body ++ ts))
    (close.trans (congrArg (_ :: ·) last))

end Scan

open Scan

/-- Whether a node is a string of either kind. -/
def isLiteral (t : Tree) : Bool :=
  t.kind == .string || t.kind == .encapsedString

/-- The first literal in a source. -/
def literal? (source : String) : Option Tree :=
  (parse source).firstWhere? isLiteral

/-- What is cut out of the source is the text of the literal. -/
theorem extract_literal (text : List Char) :
    String.Pos.Raw.extract (sourceOf text) ⟨6⟩ ⟨6 + bytes text⟩ = String.ofList text := by
  have before : String.utf8Len (opening ++ [' ']) = 6 := by decide
  have cut := String.extract_of_valid (opening ++ [' ']) text [';']
  rw [before] at cut
  rw [bytes_eq, ← cut, sourceOf]
  simp only [List.append_assoc, List.cons_append, List.nil_append]

/-- A literal in single quotes is read as a string with its own text. -/
theorem literal?_single {mark body : List Char} (marked : mark ∈ marks)
    (whole : singleQuoted (body ++ ['\'', ';']) = body.length + 1) :
    ∃ t, literal? (sourceOf (literal mark '\'' body)) = some t ∧ t.kind = .string ∧
      t.text = String.ofList (literal mark '\'' body) := by
  let text := literal mark '\'' body
  let cut := String.Pos.Raw.extract (sourceOf text) ⟨6⟩ ⟨6 + bytes text⟩
  refine ⟨.node ⟨.string, none, 6, 6 + bytes text, cut⟩ [], ?_, rfl, extract_literal text⟩
  rw [literal?, Tree.firstWhere?_eq, parse, tokens_single marked whole]
  rfl

/-- A literal in double quotes is read as a string in which nothing interpolates. -/
theorem literal?_double {mark body : List Char} (marked : mark ∈ marks)
    (whole : plain '"' (body ++ ['"', ';']) = body.length) :
    ∃ t, literal? (sourceOf (literal mark '"' body)) = some t ∧ t.kind = .encapsedString ∧
      t.parts.all (·.kind == .stringContent) = true ∧
      t.text = String.ofList (literal mark '"' body) := by
  let source := sourceOf (literal mark '"' body)
  let start := 6 + bytes (mark ++ ['"'])
  let stop := start + bytes body
  let spelled (k : Kind) (a b : Nat) (cs : List Tree) : Tree :=
    .node ⟨k, none, a, b, String.Pos.Raw.extract source ⟨a⟩ ⟨b⟩⟩ cs
  have width : stop + 1 = 6 + bytes (literal mark '"' body) := by
    simp only [stop, start, literal, bytes_eq, String.utf8Len_append, String.utf8Len_cons,
      String.utf8Len_nil]
    have one : '"'.utf8Size = 1 := by decide
    omega
  have text : String.Pos.Raw.extract source ⟨6⟩ ⟨stop + 1⟩ = String.ofList (literal mark '"' body) := by
    rw [width]
    exact extract_literal _
  cases body with
  | nil =>
    refine ⟨spelled .encapsedString 6 (stop + 1) [spelled .token 6 start [],
      spelled .token stop (stop + 1) []], ?_, rfl, rfl, text⟩
    rw [literal?, Tree.firstWhere?_eq, parse, tokens_double marked whole]
    rfl
  | cons c body =>
    refine ⟨spelled .encapsedString 6 (stop + 1) [spelled .token 6 start [],
      spelled .stringContent start stop [], spelled .token stop (stop + 1) []], ?_, rfl, rfl, text⟩
    rw [literal?, Tree.firstWhere?_eq, parse, tokens_double marked whole]
    rfl

end RouteDoc.Code
