import RouteDoc.Comment.Block
import RouteDoc.Proofs.Text.Lines

/-!
# The lines of a doc block

A comment is read line by line. Each line that says something opens a tag, goes on with the tag
above it, or belongs to the summary, and which of these it does hangs on its first word alone, and
on whether a tag is open.

## Main statements

* `isContent_of_mem_contentLines`: the lines that are read are not empty and have no blanks around
  them.
* `opens_true_eq_false_iff`: below a tag, a line goes on with it exactly when it begins with no `@`
  or its first word is one of the continuing annotations.
* `readTags_append`: lines that go on with a tag are put behind its other lines.
-/

set_option autoImplicit false

namespace RouteDoc.DocBlock

open Text

/-! ## Lines that say something -/

/-- A line that says something: it is not empty, and there are no blanks around it. -/
structure IsContent (l : List Char) : Prop extends Trimmed l where
  /-- There is something. -/
  filled : l ≠ []
  /-- It is one line. -/
  one : '\n' ∉ l

instance (l : List Char) : Decidable (IsContent l) :=
  decidable_of_iff (Trimmed l ∧ l ≠ [] ∧ '\n' ∉ l)
    ⟨fun h => ⟨h.1, h.2.1, h.2.2⟩, fun h => ⟨h.toTrimmed, h.filled, h.one⟩⟩

/-- A line without its gutter has no blanks around it. -/
theorem trimmed_stripGutter (l : List Char) : Trimmed (stripGutter l) :=
  trimmed_trim _

/-- What is left of a line was in it. -/
theorem mem_of_mem_stripGutter {l : List Char} {c : Char} (mem : c ∈ stripGutter l) : c ∈ l := by
  refine mem_of_mem_trim ?_
  have inner := mem_of_mem_trim mem
  cases star : after? ['*'] (trim l) with
  | none => rwa [star] at inner
  | some r =>
    rw [star] at inner
    rw [eq_append_of_after? star]
    exact List.mem_cons_of_mem '*' inner

/-- Only lines that say something are kept. -/
theorem isContent_of_mem_contentLines {raw l : List Char} (mem : l ∈ contentLines raw) :
    IsContent l := by
  obtain ⟨stripped, filled⟩ := List.mem_filter.mp mem
  obtain ⟨line, inBody, rfl⟩ := List.mem_map.mp stripped
  refine ⟨trimmed_stripGutter line, by simpa using filled, fun lf => ?_⟩
  exact not_mem_of_mem_lines inBody (mem_of_mem_stripGutter lf)

/-- The comment marks around a text are taken off, whatever stands between them. -/
theorem body_comment (s : List Char) : body ("/**".toList ++ s ++ "*/".toList) = s := by
  have trimmed : Trimmed ("/**".toList ++ s ++ "*/".toList) := by
    refine ⟨fun c mem => ?_, fun c mem => ?_⟩
    · cases mem
      decide
    · rw [List.getLast?_append_of_ne_nil _ (by decide)] at mem
      cases mem
      decide
  rw [body, trim_eq_self_iff.mpr trimmed, List.append_assoc, after?_append, Option.getD_some,
    before?_append, Option.getD_some]

/-- A line behind its gutter. -/
theorem stripGutter_gutter {indent l : List Char} (blank : ∀ c ∈ indent, isBlank c = true) :
    stripGutter (indent ++ '*' :: l) = trim l := by
  obtain ⟨front, back, before, behind, whole⟩ := exists_eq_trim l
  have star : ∀ r, trim (indent ++ '*' :: l) = '*' :: r →
      stripGutter (indent ++ '*' :: l) = trim r := by
    intro r trimmed
    rw [stripGutter, trimmed]
    rfl
  -- Blanks behind the gutter are at the end of the line as well when nothing follows them, and then
  -- the outer trimming takes them.
  cases text : trim l with
  | nil =>
    rw [text, List.append_nil] at whole
    have lone : Trimmed ['*'] := by decide
    refine star [] ?_
    have blanks : ∀ c ∈ front ++ back, isBlank c = true := fun c mem =>
      (List.mem_append.mp mem).elim (before c) (behind c)
    rw [whole, ← lone.trim_eq indent (front ++ back) blank blanks]
    simp
  | cons c t =>
    have trimmed := trimmed_trim l
    rw [text] at whole trimmed
    have starred : Trimmed ('*' :: (front ++ c :: t)) := by
      refine ⟨by simp; decide, fun d last => trimmed.last d ?_⟩
      rwa [List.getLast?_cons_of_ne_nil (by simp),
        List.getLast?_append_of_ne_nil _ (List.cons_ne_nil c t)] at last
    have inner : trim (front ++ c :: t) = c :: t := by
      simpa using trimmed.trim_eq front [] before (by simp)
    have outer : trim (indent ++ '*' :: l) = '*' :: (front ++ c :: t) := by
      rw [whole]
      simpa using starred.trim_eq indent back blank behind
    rw [star _ outer, inner]

/-! ## Which lines open a tag -/

/-- A line that goes on with the tag above it: it begins with `@` only if its first word is one of
the continuing annotations. -/
def Continues (l : List Char) : Prop :=
  l.head? = some '@' → ∃ a ∈ continuing, (words l).head? = some a

instance (l : List Char) : Decidable (Continues l) :=
  inferInstanceAs (Decidable (_ → _))

/-- A line begins with a tag exactly when this is its first word. -/
theorem beginsWith_iff {l tag : List Char} (ink : ∀ c ∈ l.head?, isBlank c = false)
    (word : IsWordText tag) : beginsWith l tag = true ↔ (words l).head? = some tag := by
  have inTag : ∀ c ∈ tag, (!isBlank c) = true := fun c mem => by simp [word.ink c mem]
  constructor
  · intro begins
    rw [beginsWith] at begins
    cases behind : after? tag l with
    | none => rw [behind] at begins; cases begins
    | some r =>
      rw [behind] at begins
      rw [eq_append_of_after? behind]
      cases r with
      | nil => rw [List.append_nil, words_of_isWordText word]; rfl
      | cons c r => rw [words_append_blank begins, words_of_isWordText word]; rfl
  · intro first
    have filled : l ≠ [] := by
      rintro rfl
      cases first
    rw [words_cutAtBlank ink filled] at first
    have whole : tag ++ l.dropWhile (! isBlank ·) = l := by
      rw [← Option.some.inj first]
      exact List.takeWhile_append_dropWhile
    rw [beginsWith, ← whole, after?_append]
    cases rest : l.dropWhile (! isBlank ·) with
    | nil => rfl
    | cons c r =>
      have stop : c ∈ (l.dropWhile (! isBlank ·)).head? := by rw [rest]; rfl
      simpa using not_of_mem_head?_dropWhile stop

/-- The annotations that continue a tag are single words. -/
theorem isWordText_of_mem_continuing {a : List Char} (mem : a ∈ continuing) : IsWordText a := by
  have all : ∀ a ∈ continuing, IsWordText a := by decide +kernel
  exact all a mem

/-- The first mark of all opens a tag, whatever word it begins. -/
theorem opens_false (l : List Char) : opens false l = (l.head? == some '@') := by
  simp [opens]

/-- Below a tag, a line opens none exactly when it goes on with that tag. -/
theorem opens_true_eq_false_iff {l : List Char} (ink : ∀ c ∈ l.head?, isBlank c = false) :
    opens true l = false ↔ Continues l := by
  have first : (continuing.any (beginsWith l) = true) ↔
      ∃ a ∈ continuing, (words l).head? = some a := by
    rw [List.any_eq_true]
    exact exists_congr fun a => and_congr_right fun mem =>
      beginsWith_iff ink (isWordText_of_mem_continuing mem)
  rw [opens, Continues, ← first]
  cases h : l.head? == some '@' <;> cases c : continuing.any (beginsWith l) <;> simp_all

/-! ## Tags -/

/-- A tag begins with what stands on its line behind the word. -/
theorem linesRev_openTag (l : List Char) :
    (openTag l).linesRev =
      if (trim (cutAtBlank l).2).isEmpty then [] else [trim (cutAtBlank l).2] := rfl

/-- Lines that go on with a tag are put behind its other lines. -/
theorem readTags_append {ls : List (List Char)}
    (go : ∀ l ∈ ls, opens true l = false) (t : Open) (rest : List (List Char)) :
    readTags t (ls ++ rest) = readTags ⟨t.name, ls.reverse ++ t.linesRev⟩ rest := by
  induction ls generalizing t with
  | nil => rfl
  | cons l ls ih =>
    obtain ⟨first, behind⟩ := List.forall_mem_cons.mp go
    rw [List.cons_append, readTags, first, if_neg (by simp), ih behind]
    simp [Open.addLine]

/-- A block is read off the lines of the comment that say something. -/
theorem parse_eq (raw : String) :
    parse raw = ⟨joinLines (readLines (contentLines raw.toList)).1,
      (readLines (contentLines raw.toList)).2⟩ := by
  rw [parse]

end RouteDoc.DocBlock
