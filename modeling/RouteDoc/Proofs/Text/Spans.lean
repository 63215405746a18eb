import Mathlib.Data.List.TakeWhile
import RouteDoc.Text.Blank

/-!
# Heads, spans and the ends of texts

A reader takes a head off a text, or all characters up to the first that it does not want. A text
without blanks at its ends is what trimming makes of it, whatever blanks stand around it; and
trimming takes blanks off both ends of any text and nothing else.

## Main statements

* `takeWhile_append_of_stop`, `dropWhile_append_of_stop`: a span ends where its property does.
* `Trimmed.trim_eq`: blanks around a trimmed text are all that trimming takes.
* `exists_eq_trim`, `trimmed_trim`: every text is a trimmed one with blanks around.
-/

set_option autoImplicit false

namespace RouteDoc.Text

/-- A condition on the characters of a text is decided by going through the text, and not through
all characters. -/
instance decidableForallChars (p : Char → Prop) [DecidablePred p] (s : List Char) :
    Decidable (∀ c ∈ s, p c) :=
  List.decidableBAll p s

/-! ## Heads and spans -/

theorem after?_append (head s : List Char) : after? head (head ++ s) = some s := by
  induction head with
  | nil => rfl
  | cons h head ih => rw [List.cons_append, after?, if_pos (beq_self_eq_true h), ih]

theorem after?_of_head_ne {h c : Char} (other : h ≠ c) (head s : List Char) :
    after? (h :: head) (c :: s) = none := by
  rw [after?, if_neg (by simpa using other)]

theorem before?_append (tail s : List Char) : before? tail (s ++ tail) = some s := by
  rw [before?, List.reverse_append, after?_append, Option.map_some, List.reverse_reverse]

/-- What is left before a tail is what stands in front of it. -/
theorem eq_append_of_before? {tail s r : List Char} (h : before? tail s = some r) :
    s = r ++ tail := by
  obtain ⟨t, after, rfl⟩ := Option.map_eq_some_iff.mp h
  have turned := congrArg List.reverse (eq_append_of_after? after)
  rwa [List.reverse_reverse, List.reverse_append, List.reverse_reverse] at turned

/-- What is taken while a property holds ends where it holds no longer. -/
theorem takeWhile_append_of_stop {p : Char → Bool} {s rest : List Char} (all : ∀ c ∈ s, p c = true)
    (stop : ∀ c ∈ rest.head?, p c = false) : (s ++ rest).takeWhile p = s := by
  rw [List.takeWhile_append_of_pos all]
  cases rest with
  | nil => rw [List.takeWhile_nil, List.append_nil]
  | cons c rest => rw [List.takeWhile_cons_of_neg (by simp [stop c rfl]), List.append_nil]

/-- What is dropped while a property holds ends where it holds no longer. -/
theorem dropWhile_append_of_stop {p : Char → Bool} {s rest : List Char} (all : ∀ c ∈ s, p c = true)
    (stop : ∀ c ∈ rest.head?, p c = false) : (s ++ rest).dropWhile p = rest := by
  rw [List.dropWhile_append_of_pos all]
  cases rest with
  | nil => rfl
  | cons c rest => rw [List.dropWhile_cons_of_neg (by simp [stop c rfl])]

/-- What stands behind the end of a span makes no difference to it. -/
theorem takeWhile_append_left {p : Char → Bool} {s rest : List Char}
    (stop : ∀ c ∈ rest.head?, p c = false) : (s ++ rest).takeWhile p = s.takeWhile p := by
  induction s with
  | nil => exact takeWhile_append_of_stop (List.forall_mem_nil _) stop
  | cons c s ih =>
    rw [List.cons_append, List.takeWhile_cons, List.takeWhile_cons, ih]

/-- What stands behind the end of a span is left behind it. -/
theorem dropWhile_append_left {p : Char → Bool} {s rest : List Char}
    (stop : ∀ c ∈ rest.head?, p c = false) :
    (s ++ rest).dropWhile p = s.dropWhile p ++ rest := by
  induction s with
  | nil => exact dropWhile_append_of_stop (List.forall_mem_nil _) stop
  | cons c s ih =>
    rw [List.cons_append, List.dropWhile_cons, List.dropWhile_cons, ih]
    split <;> rfl

/-- Dropping stops where the property holds no longer. -/
theorem not_of_mem_head?_dropWhile {α : Type} {p : α → Bool} {s : List α} {c : α}
    (mem : c ∈ (s.dropWhile p).head?) : p c = false := by
  have stop := List.head?_dropWhile_not p s
  rw [Option.mem_def.mp mem] at stop
  exact stop

/-! ## Trimming -/

/-- A text without blanks at its ends. -/
structure Trimmed (s : List Char) : Prop where
  /-- It begins with no blank. -/
  head : ∀ c ∈ s.head?, isBlank c = false
  /-- It ends with no blank. -/
  last : ∀ c ∈ s.getLast?, isBlank c = false

/-- Blanks around a trimmed text are all that trimming takes. -/
theorem Trimmed.trim_eq {s : List Char} (h : Trimmed s) (front back : List Char)
    (before : ∀ c ∈ front, isBlank c = true) (behind : ∀ c ∈ back, isBlank c = true) :
    trim (front ++ s ++ back) = s := by
  cases s with
  | nil =>
    have all : ∀ c ∈ front ++ [] ++ back, isBlank c = true := by
      intro c mem
      rw [List.append_nil] at mem
      exact (List.mem_append.mp mem).elim (before c) (behind c)
    rw [trim, trimStart, List.dropWhile_eq_nil_iff.mpr all]
    rfl
  | cons c s =>
    have start : trimStart (front ++ c :: s ++ back) = c :: s ++ back := by
      rw [trimStart, List.append_assoc, List.dropWhile_append_of_pos before]
      exact List.dropWhile_cons_of_neg (by simp [h.head c rfl])
    have stop : ∀ x ∈ (c :: s).reverse.head?, isBlank x = false := by
      rw [List.head?_reverse]
      exact h.last
    rw [trim, start, trimEnd, List.reverse_append,
      dropWhile_append_of_stop (by simpa using behind) stop, List.reverse_reverse]

/-- What trimming takes off the end. -/
theorem trimStart_eq_trim_append (s : List Char) :
    trimStart s = trim s ++ ((trimStart s).reverse.takeWhile isBlank).reverse := by
  rw [trim, trimEnd, ← List.reverse_append, List.takeWhile_append_dropWhile, List.reverse_reverse]

/-- A text is what trimming leaves of it, with blanks around. -/
theorem exists_eq_trim (s : List Char) : ∃ front back, (∀ c ∈ front, isBlank c = true) ∧
    (∀ c ∈ back, isBlank c = true) ∧ s = front ++ trim s ++ back := by
  refine ⟨s.takeWhile isBlank, ((trimStart s).reverse.takeWhile isBlank).reverse,
    fun c => List.mem_takeWhile_imp, fun c mem => ?_, ?_⟩
  · exact List.mem_takeWhile_imp (List.mem_reverse.mp mem)
  · rw [List.append_assoc, ← trimStart_eq_trim_append, trimStart, List.takeWhile_append_dropWhile]

/-- A text that was trimmed has no blanks around it. -/
theorem trimmed_trim (s : List Char) : Trimmed (trim s) where
  head c mem := by
    have first : c ∈ (trimStart s).head? := by
      rw [trimStart_eq_trim_append, List.head?_append, Option.mem_def.mp mem]
      rfl
    exact not_of_mem_head?_dropWhile first
  last c mem := by
    rw [trim, trimEnd, List.getLast?_reverse] at mem
    exact not_of_mem_head?_dropWhile mem

/-- Trimming leaves just the trimmed texts as they are. -/
theorem trim_eq_self_iff {s : List Char} : trim s = s ↔ Trimmed s := by
  constructor
  · intro h
    rw [← h]
    exact trimmed_trim s
  · intro h
    have bare := h.trim_eq [] [] (by simp) (by simp)
    rwa [List.nil_append, List.append_nil] at bare

instance (s : List Char) : Decidable (Trimmed s) :=
  decidable_of_iff _ trim_eq_self_iff

/-- Blanks behind a text make no difference to what trimming leaves. -/
theorem trim_append_blanks (s : List Char) {behind : List Char}
    (blank : ∀ c ∈ behind, isBlank c = true) : trim (s ++ behind) = trim s := by
  obtain ⟨front, back, before, after, whole⟩ := exists_eq_trim s
  have blanks : ∀ c ∈ back ++ behind, isBlank c = true := fun c mem =>
    (List.mem_append.mp mem).elim (after c) (blank c)
  calc
    trim (s ++ behind) = trim (front ++ trim s ++ (back ++ behind)) := by
      rw [← List.append_assoc, ← whole]
    _ = trim s := (trimmed_trim s).trim_eq front (back ++ behind) before blanks

theorem mem_of_mem_trim {s : List Char} {c : Char} (mem : c ∈ trim s) : c ∈ s := by
  obtain ⟨front, back, -, -, whole⟩ := exists_eq_trim s
  rw [whole]
  exact List.mem_append_left back (List.mem_append_right front mem)

end RouteDoc.Text
