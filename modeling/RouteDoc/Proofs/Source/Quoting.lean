import RouteDoc.Proofs.Code.Literals
import RouteDoc.Source.Literal

/-!
# Texts between quotes

Any text may be written between quotes of either kind, in more than one way. Between single quotes
a backslash stands before each quote and each backslash, and a backslash in front of another
character may also stand alone. Between double quotes a backslash stands before each quote, each
backslash and each dollar sign, and some controls may be written as a letter behind one. Whichever
way is chosen, the literal is scanned as a whole, nothing in it interpolates, and its value is the
text.

## Main statements

* `unescapeSingle_of_written`, `unescapeDouble_of_written`: reading undoes writing.
* `singleQuoted_of_written`, `plain_of_written`: the scanner takes all that was written, and stops
  at the closing quote.
* `denotes_of_written`: the value of a literal, whichever node it is, and in a source of its own.
-/

set_option autoImplicit false

namespace RouteDoc

open Text Code

namespace Literal

/-! ## Writing -/

/-- What needs a backslash between single quotes. -/
def singleSpecials : List Char := ['\\', '\'']

/-- What needs a backslash between double quotes. -/
def doubleSpecials : List Char := ['\\', '"', '$']

/-- The controls that may be written as a letter behind a backslash. -/
def controls : List (Char × Char) :=
  [('\n', 'n'), ('\t', 't'), ('\r', 'r'), ('\x0b', 'v'), ('\x1b', 'e'), ('\x0c', 'f')]

/-- A text with a backslash before each character of `specials`. -/
def guarded (specials s : List Char) : List Char :=
  s.flatMap fun c => if c ∈ specials then ['\\', c] else [c]

/-- The ways to write a text between single quotes. -/
inductive WrittenSingle : List Char → List Char → Prop where
  | nil : WrittenSingle [] []
  | plain {c : Char} {s body : List Char} (ordinary : c ∉ singleSpecials)
      (rest : WrittenSingle s body) : WrittenSingle (c :: s) (c :: body)
  | guarded {c : Char} {s body : List Char} (special : c ∈ singleSpecials)
      (rest : WrittenSingle s body) : WrittenSingle (c :: s) ('\\' :: c :: body)
  /-- A backslash need not be written twice in front of an ordinary character. -/
  | lone {c : Char} {s body : List Char} (ordinary : c ∉ singleSpecials)
      (rest : WrittenSingle (c :: s) body) : WrittenSingle ('\\' :: c :: s) ('\\' :: body)

/-- The ways to write a text between double quotes. -/
inductive WrittenDouble : List Char → List Char → Prop where
  | nil : WrittenDouble [] []
  | plain {c : Char} {s body : List Char} (ordinary : c ∉ doubleSpecials)
      (rest : WrittenDouble s body) : WrittenDouble (c :: s) (c :: body)
  | guarded {c : Char} {s body : List Char} (special : c ∈ doubleSpecials)
      (rest : WrittenDouble s body) : WrittenDouble (c :: s) ('\\' :: c :: body)
  | letter {c l : Char} {s body : List Char} (control : (c, l) ∈ controls)
      (rest : WrittenDouble s body) : WrittenDouble (c :: s) ('\\' :: l :: body)

/-- One way is to put a backslash before all that needs one anywhere. -/
theorem writtenSingle_guarded (s : List Char) : WrittenSingle s (guarded singleSpecials s) := by
  induction s with
  | nil => exact .nil
  | cons c s ih =>
    rw [guarded, List.flatMap_cons]
    split
    next special => exact .guarded special ih
    next ordinary => exact .plain ordinary ih

/-- A backslash before each character that needs one is a way to write a text. -/
theorem writtenDouble_guarded (s : List Char) : WrittenDouble s (guarded doubleSpecials s) := by
  induction s with
  | nil => exact .nil
  | cons c s ih =>
    rw [guarded, List.flatMap_cons]
    split
    next special => exact .guarded special ih
    next ordinary => exact .plain ordinary ih

/-! ## Reading -/

/-- A character stands for itself unless it is a backslash in front of one that needs one. -/
theorem unescapeSingle_cons {c : Char} {cs : List Char}
    (alone : c = '\\' → ∀ d ∈ cs.head?, d ∉ singleSpecials) :
    unescapeSingle (c :: cs) = c :: unescapeSingle cs := by
  rw [unescapeSingle]
  · rintro ds rfl rfl
    exact alone rfl _ rfl (by decide)
  · rintro ds rfl rfl
    exact alone rfl _ rfl (by decide)

/-- What needs a backslash is read without it. -/
theorem unescapeSingle_guarded {c : Char} (special : c ∈ singleSpecials) (cs : List Char) :
    unescapeSingle ('\\' :: c :: cs) = c :: unescapeSingle cs := by
  simp only [singleSpecials, List.mem_cons, List.not_mem_nil, or_false] at special
  rcases special with rfl | rfl <;> rfl

theorem unescapeDouble_cons {c : Char} (other : c ≠ '\\') (cs : List Char) :
    unescapeDouble (c :: cs) = c :: unescapeDouble cs := by
  rw [unescapeDouble]
  rintro d ds rfl
  exact absurd rfl other

/-- A character behind a backslash is read as what it stands for. -/
theorem unescapeDouble_escaped {c d : Char} (escaped : escaped? c = some d) (cs : List Char) :
    unescapeDouble ('\\' :: c :: cs) = d :: unescapeDouble cs := by
  rw [unescapeDouble, escaped]

/-- An ordinary first character is written first. -/
theorem WrittenSingle.exists_of_ordinary {c : Char} {s body : List Char}
    (h : WrittenSingle (c :: s) body) (ordinary : c ∉ singleSpecials) :
    ∃ more, body = c :: more := by
  cases h with
  | plain => exact ⟨_, rfl⟩
  | guarded special => exact absurd special ordinary
  | lone => exact absurd (by decide) ordinary

/-- Reading undoes writing between single quotes, whichever way was chosen. -/
theorem unescapeSingle_of_written {s body : List Char} (h : WrittenSingle s body) :
    unescapeSingle body = s := by
  induction h with
  | nil => rfl
  | plain ordinary rest ih =>
    rw [unescapeSingle_cons, ih]
    rintro rfl
    exact absurd (by decide) ordinary
  | guarded special rest ih => rw [unescapeSingle_guarded special, ih]
  | lone ordinary rest ih =>
    obtain ⟨more, rfl⟩ := rest.exists_of_ordinary ordinary
    rw [unescapeSingle_cons, ih]
    rintro - d ⟨⟩
    exact ordinary

/-- Reading undoes writing between double quotes. -/
theorem unescapeDouble_of_written {s body : List Char} (h : WrittenDouble s body) :
    unescapeDouble body = s := by
  have specials : ∀ c ∈ doubleSpecials, escaped? c = some c := by decide
  have letters : ∀ p ∈ controls, escaped? p.2 = some p.1 := by decide
  induction h with
  | nil => rfl
  | plain ordinary rest ih =>
    rw [unescapeDouble_cons, ih]
    rintro rfl
    exact absurd (by decide) ordinary
  | guarded special rest ih => rw [unescapeDouble_escaped (specials _ special), ih]
  | letter control rest ih => rw [unescapeDouble_escaped (letters _ control), ih]

/-! ## Scanning -/

open Scan

/-- The scanner counts a character that needs no backslash. -/
theorem singleQuoted_cons {c : Char} (ordinary : c ∉ singleSpecials) (cs : List Char) :
    singleQuoted (c :: cs) = singleQuoted cs + 1 := by
  rw [singleQuoted]
  · rintro rfl
    exact absurd (by decide) ordinary
  · rintro d ds rfl
    exact absurd (by decide) ordinary

/-- The scanner takes what was written between single quotes, and the closing quote. -/
theorem singleQuoted_of_written {s body : List Char} (h : WrittenSingle s body)
    (rest : List Char) : singleQuoted (body ++ '\'' :: rest) = body.length + 1 := by
  induction h with
  | nil => rfl
  | plain ordinary _ ih =>
    rw [List.cons_append, singleQuoted_cons ordinary, ih]
    rfl
  | guarded special _ ih =>
    rw [List.cons_append, List.cons_append, singleQuoted, ih]
    rfl
  | lone ordinary written ih =>
    -- The backslash takes the next character along, which would have been passed by itself too.
    obtain ⟨more, rfl⟩ := written.exists_of_ordinary ordinary
    rw [List.cons_append, singleQuoted_cons ordinary] at ih
    rw [List.cons_append, List.cons_append, singleQuoted]
    simp only [List.length_cons] at ih ⊢
    omega

/-- What was written between double quotes begins with no dollar sign. -/
theorem WrittenDouble.head_ne {s body : List Char} (h : WrittenDouble s body) {rest : List Char}
    {c : Char} {cs : List Char} (front : body ++ '"' :: rest = c :: cs) : c ≠ '$' := by
  cases h with
  | nil =>
    cases front
    decide
  | plain ordinary =>
    cases front
    rintro rfl
    exact absurd (by decide) ordinary
  | guarded => cases front; decide
  | letter => cases front; decide

/-- The scanner takes what was written between double quotes for a text that stands for itself. -/
theorem plain_of_written {s body : List Char} (h : WrittenDouble s body) (rest : List Char) :
    plain '"' (body ++ '"' :: rest) = body.length := by
  induction h with
  | nil => rfl
  | @plain c s body ordinary written ih =>
    have notSpecial : c ≠ '\\' ∧ c ≠ '"' ∧ c ≠ '$' := by
      simpa [doubleSpecials] using ordinary
    have noHole : opensHole (c :: (body ++ '"' :: rest)) = false := by
      unfold opensHole
      split
      next same => exact absurd (List.cons.inj same).1 notSpecial.2.2
      next same => exact absurd rfl (written.head_ne (List.cons.inj same).2)
      next same => exact absurd (List.cons.inj same).1 notSpecial.2.2
      next => rfl
    rw [List.cons_append, Scan.plain.eq_3 _ _ _ fun _ _ same => absurd same notSpecial.1, noHole,
      if_neg (by simpa using notSpecial.2.1), ih]
    rfl
  | guarded _ _ ih =>
    rw [List.cons_append, List.cons_append, Scan.plain, ih]
    rfl
  | letter _ _ ih =>
    rw [List.cons_append, List.cons_append, Scan.plain, ih]
    rfl

/-! ## Literals -/

/-- What stands between the quotes of a literal. -/
theorem unquote?_literal (quote : Char) (other : quote ≠ 'b' ∧ quote ≠ 'B') {mark : List Char}
    (marked : mark ∈ marks) (body : List Char) :
    unquote? quote (literal mark quote body) = some body := by
  have inner : (after? [quote] (quote :: (body ++ [quote]))).bind (before? [quote]) = some body := by
    have opened : after? [quote] (quote :: (body ++ [quote])) = some (body ++ [quote]) :=
      after?_append [quote] _
    rw [opened, Option.bind_some, before?_append]
  have bare : ∀ c, c ≠ quote → after? [c] (quote :: (body ++ [quote])) = none := fun c ne =>
    after?_of_head_ne ne [] _
  simp only [marks, List.mem_cons, List.not_mem_nil, or_false] at marked
  rcases marked with rfl | rfl | rfl
  · rw [unquote?, literal, List.nil_append, bare _ other.1.symm, bare _ other.2.symm]
    exact inner
  · exact inner
  · exact inner

end Literal

open Literal

/-- A literal in single quotes. -/
def Code.Tree.IsSingle (t : Code.Tree) : Prop :=
  t.kind = .string

/-- A literal in double quotes in which nothing interpolates. -/
def Code.Tree.IsDouble (t : Code.Tree) : Prop :=
  t.kind = .encapsedString ∧ t.parts.all (·.kind == .stringContent) = true

section Values

variable {t : Code.Tree} {mark body : List Char} (marked : mark ∈ marks)
include marked

/-- The value of a literal in single quotes is what stands between them, with its escapes undone. -/
theorem Code.Tree.IsSingle.stringValue? (h : t.IsSingle)
    (text : t.text.toList = literal mark '\'' body) :
    t.stringValue? = some (String.ofList (unescapeSingle body)) := by
  have inner := unquote?_literal '\'' (by decide) marked body
  rw [Code.Tree.stringValue?, h]
  simp only [single?, text, inner, Option.map_some]

/-- The value of a literal in double quotes is what stands between them, if nothing interpolates. -/
theorem Code.Tree.IsDouble.stringValue? (h : t.IsDouble)
    (text : t.text.toList = literal mark '"' body) :
    t.stringValue? = some (String.ofList (unescapeDouble body)) := by
  have inner := unquote?_literal '"' (by decide) marked body
  rw [Code.Tree.stringValue?, h.1]
  simp only [h.2, if_true, double?, text, inner, Option.map_some]

end Values

/-- The literals of a kind with the text `text` have the value `s`: each node of that kind and text,
and the literal of a source that holds nothing else, which is read as such a node. -/
structure Literal.Denotes (kind : Code.Tree → Prop) (text s : List Char) : Prop where
  value : ∀ t, kind t → t.text.toList = text → t.stringValue? = some (String.ofList s)
  read : ∃ t, literal? (sourceOf text) = some t ∧ kind t ∧ t.text.toList = text

/-- **The value of a literal is the text that was written,** in whichever of the ways there are
between its quotes, with or without a mark in front. -/
theorem Literal.denotes_of_written (s : List Char) {mark : List Char} (marked : mark ∈ marks) :
    (WrittenSingle s (guarded singleSpecials s) ∧ ∀ body, WrittenSingle s body →
      Denotes Code.Tree.IsSingle (literal mark '\'' body) s) ∧
    (WrittenDouble s (guarded doubleSpecials s) ∧ ∀ body, WrittenDouble s body →
      Denotes Code.Tree.IsDouble (literal mark '"' body) s) := by
  refine ⟨⟨writtenSingle_guarded s, fun body written => ⟨fun t kind text => ?_, ?_⟩⟩,
    ⟨writtenDouble_guarded s, fun body written => ⟨fun t kind text => ?_, ?_⟩⟩⟩
  · rw [kind.stringValue? marked text, unescapeSingle_of_written written]
  · obtain ⟨t, found, kind, text⟩ := literal?_single marked (singleQuoted_of_written written [';'])
    exact ⟨t, found, kind, by rw [text, String.toList_ofList]⟩
  · rw [kind.stringValue? marked text, unescapeDouble_of_written written]
  · obtain ⟨t, found, kind, whole, text⟩ := literal?_double marked (plain_of_written written [';'])
    exact ⟨t, found, ⟨kind, whole⟩, by rw [text, String.toList_ofList]⟩

namespace Sample

/-- A text with two backslashes and a quote, of which the first backslash stands alone. -/
theorem writtenSingle_lone : WrittenSingle ['\\', 'd', '\'', '\\']
    ['\\', 'd', '\\', '\'', '\\', '\\'] :=
  .lone (by decide) (.plain (by decide) (.guarded (by decide) (.guarded (by decide) .nil)))

/-- A text with a line end, which is written as a letter, and a dollar sign. -/
theorem writtenDouble_letter : WrittenDouble ['a', '\n', '$', 'b']
    ['a', '\\', 'n', '\\', '$', 'b'] :=
  .plain (by decide) (.letter (by decide) (.guarded (by decide) (.plain (by decide) .nil)))

/-- Either of them is the value of what was written, also with a mark in front. -/
theorem denotes_of_written_marked :
    ['b'] ∈ marks ∧
    Denotes Code.Tree.IsSingle
      (literal ['b'] '\'' ['\\', 'd', '\\', '\'', '\\', '\\']) ['\\', 'd', '\'', '\\'] ∧
    Denotes Code.Tree.IsDouble (literal ['b'] '"' ['a', '\\', 'n', '\\', '$', 'b'])
      ['a', '\n', '$', 'b'] := by
  have marked : ['b'] ∈ marks := by decide
  exact ⟨marked, (denotes_of_written _ marked).1.2 _ writtenSingle_lone,
    (denotes_of_written _ marked).2.2 _ writtenDouble_letter⟩

end Sample

end RouteDoc
