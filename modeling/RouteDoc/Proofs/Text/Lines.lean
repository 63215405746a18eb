import RouteDoc.Proofs.Text.Words

/-!
# Lines, and the words in them

Cutting a text into lines and joining lines by line feeds undo each other. Neither the ends of lines
nor trimming reach the words of a text, and the first of them is what stands before the first blank.

## Main statements

* `join_lines`, `lines_join`: cutting into lines and joining them undo each other.
* `words_join_lines`, `words_trim`: the words are those of the lines, trimmed or not.
* `words_cutAtBlank`: what stands before the first blank is the first word.
-/

set_option autoImplicit false

namespace RouteDoc.Text

/-! ## Lines -/

/-- Lines are what the library's splitting gives. -/
theorem lines_eq_splitOn (s : List Char) : lines s = s.splitOn '\n' := by
  induction s with
  | nil => rfl
  | cons c s ih =>
    rw [lines, List.splitOn_cons_eq_if_modifyHead, ih]
    split
    next => rfl
    next =>
      cases cut : s.splitOn '\n' with
      | nil => exact absurd cut (List.splitOn_ne_nil _ _)
      | cons l ls => rfl

/-- A text without a line feed is one line. -/
theorem lines_of_not_mem {s : List Char} (one : '\n' ∉ s) : lines s = [s] := by
  rw [lines_eq_splitOn, List.splitOn_eq_singleton one]

/-- A line ends at the first line feed. -/
theorem lines_append_lf {a : List Char} (one : '\n' ∉ a) (b : List Char) :
    lines (a ++ '\n' :: b) = a :: lines b := by
  rw [lines_eq_splitOn, lines_eq_splitOn, List.splitOn_append_cons_self_of_not_mem one]

theorem lines_ne_nil (s : List Char) : lines s ≠ [] := by
  rw [lines_eq_splitOn]
  exact List.splitOn_ne_nil _ _

/-- No line holds a line feed. -/
theorem not_mem_of_mem_lines {s l : List Char} (mem : l ∈ lines s) : '\n' ∉ l := by
  induction s generalizing l with
  | nil => simp_all [lines]
  | cons c s ih =>
    rw [lines] at mem
    split at mem
    next =>
      obtain rfl | mem := List.mem_cons.mp mem
      · exact List.not_mem_nil
      · exact ih mem
    next other =>
      have ink : '\n' ≠ c := fun same => other (beq_iff_eq.mpr same.symm)
      split at mem
      next =>
        rw [List.mem_singleton.mp mem]
        exact List.not_mem_cons_of_ne_of_not_mem ink List.not_mem_nil
      next first rest cut =>
        rw [cut] at ih
        obtain rfl | mem := List.mem_cons.mp mem
        · exact List.not_mem_cons_of_ne_of_not_mem ink (ih List.mem_cons_self)
        · exact ih (List.mem_cons_of_mem first mem)

/-- **The lines of a text, joined, are the text.** -/
theorem join_lines (s : List Char) : ['\n'].intercalate (lines s) = s := by
  rw [lines_eq_splitOn, List.intercalate_splitOn]

/-- **Joined lines are cut where they were joined.** -/
theorem lines_join {ls : List (List Char)} (one : ∀ l ∈ ls, '\n' ∉ l) (filled : ls ≠ []) :
    lines (['\n'].intercalate ls) = ls := by
  rw [lines_eq_splitOn, List.splitOn_intercalate '\n' one filled]

/-- Lines that are ended by line feeds are cut at those. -/
theorem lines_flatMap {ls : List (List Char)} {last : List Char} (one : ∀ l ∈ ls, '\n' ∉ l)
    (one' : '\n' ∉ last) : lines (ls.flatMap (· ++ ['\n']) ++ last) = ls ++ [last] := by
  induction ls with
  | nil => exact lines_of_not_mem one'
  | cons l ls ih =>
    obtain ⟨first, rest⟩ := List.forall_mem_cons.mp one
    rw [List.flatMap_cons, List.append_assoc, List.append_assoc, List.singleton_append,
      lines_append_lf first, ih rest, List.cons_append]

/-- The words of joined lines are those of the lines. -/
theorem words_join_lines (ls : List (List Char)) :
    words (['\n'].intercalate ls) = ls.flatMap words := by
  induction ls with
  | nil => rfl
  | cons l ls ih =>
    cases ls with
    | nil => rw [List.intercalate_singleton, List.flatMap_singleton]
    | cons k ls =>
      rw [List.intercalate_cons_cons, List.append_assoc, List.singleton_append,
        words_append_blank (by decide), ih, ← List.flatMap_cons]

/-! ## Words of trimmed texts -/

/-- Trimming leaves the words alone. -/
theorem words_trim (s : List Char) : words (trim s) = words s := by
  obtain ⟨front, back, before, behind, whole⟩ := exists_eq_trim s
  conv_rhs => rw [whole, words_append_blanks _ behind, words_blanks_append before]

/-- Trimming leaves nothing of a text exactly when there are no words in it. -/
theorem isEmpty_words (s : List Char) : (words s).isEmpty = (trim s).isEmpty := by
  cases text : trim s with
  | nil =>
    rw [← words_trim, text]
    rfl
  | cons c t =>
    have ink : isBlank c = false := (trimmed_trim s).head c (by rw [text]; rfl)
    obtain ⟨w, ws, cut⟩ := exists_words_cons ink t
    rw [← words_trim, text, cut]
    rfl

/-! ## The first word -/

/-- A text is cut behind its first word if a blank follows. -/
theorem cutAtBlank_append {w : List Char} (ink : ∀ c ∈ w, isBlank c = false) {b : Char}
    (blank : isBlank b = true) (s : List Char) : cutAtBlank (w ++ b :: s) = (w, s) := by
  have all : ∀ c ∈ w, (!isBlank c) = true := fun c mem => by simp [ink c mem]
  have stop : ∀ c ∈ (b :: s).head?, (!isBlank c) = false := fun c mem => by
    cases mem
    simp [blank]
  rw [cutAtBlank, takeWhile_append_of_stop all stop, dropWhile_append_of_stop all stop]
  rfl

theorem cutAtBlank_of_ink {w : List Char} (ink : ∀ c ∈ w, isBlank c = false) :
    cutAtBlank w = (w, []) := by
  have all : ∀ c ∈ w, (!isBlank c) = true := fun c mem => by simp [ink c mem]
  rw [cutAtBlank, List.takeWhile_eq_self_iff.mpr all, List.dropWhile_eq_nil_iff.mpr all]
  rfl

/-- A text that begins with no blank begins with its first word, and the others follow a blank. -/
theorem words_cutAtBlank {s : List Char} (ink : ∀ c ∈ s.head?, isBlank c = false)
    (filled : s ≠ []) : words s = (cutAtBlank s).1 :: words (cutAtBlank s).2 := by
  have whole : s.takeWhile (! isBlank ·) ++ s.dropWhile (! isBlank ·) = s :=
    List.takeWhile_append_dropWhile
  have word : IsWordText (s.takeWhile (! isBlank ·)) := by
    refine ⟨?_, fun c mem => by simpa using List.mem_takeWhile_imp mem⟩
    obtain ⟨c, s, rfl⟩ := List.exists_cons_of_ne_nil filled
    rw [List.takeWhile_cons_of_pos (by simp [ink c rfl])]
    exact List.cons_ne_nil _ _
  show words s = s.takeWhile (! isBlank ·) :: words ((s.dropWhile (! isBlank ·)).drop 1)
  cases rest : s.dropWhile (! isBlank ·) with
  | nil =>
    rw [rest, List.append_nil] at whole
    rw [whole] at word ⊢
    exact words_of_isWordText word
  | cons b rest' =>
    have blank : isBlank b = true := by
      have stop : b ∈ (s.dropWhile (! isBlank ·)).head? := by rw [rest]; rfl
      simpa using not_of_mem_head?_dropWhile stop
    rw [rest] at whole
    conv_lhs => rw [← whole]
    rw [words_append_blank blank, words_of_isWordText word]
    rfl

/-- A text that begins with no blank begins as its first word does. -/
theorem head?_first_word {s : List Char} (ink : ∀ c ∈ s.head?, isBlank c = false) :
    (words s).head?.bind List.head? = s.head? := by
  cases s with
  | nil => rfl
  | cons c s =>
    rw [words_cutAtBlank ink (List.cons_ne_nil c s)]
    show ((c :: s).takeWhile (! isBlank ·)).head? = some c
    rw [List.takeWhile_cons_of_pos (by simp [ink c rfl]), List.head?_cons]

end RouteDoc.Text
