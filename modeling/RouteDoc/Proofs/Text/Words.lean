import Mathlib.Data.List.Chain
import RouteDoc.Proofs.Text.Spans
import RouteDoc.Text.Word

/-!
# Words and single spaces

A text is cut into words at its blanks, so a blank separates what stands before it from what stands
behind it, and any number of blanks in its place would do the same. A text is tight when single
spaces are all that separates its words and there are none at its ends; collapsing and trimming
leave such a text alone.

## Main statements

* `words_append_blank`: the words on both sides of a blank, one after the other.
* `words_join`: joining words by single spaces is undone by cutting.
* `Tight.collapse_eq`: a tight text is its words joined by single spaces.
* `commaList_join`: joining tight items by a comma and a space is undone by cutting at commas.
-/

set_option autoImplicit false

namespace RouteDoc.Text

/-! ## Words -/

/-- A blank in front does not matter. -/
theorem words_cons_blank {c : Char} (blank : isBlank c = true) (s : List Char) :
    words (c :: s) = words s := by
  cases s with
  | nil => simp only [words, if_pos blank]
  | cons d s => rw [words, if_pos blank]

/-- A character in front of a blank is a word of its own. -/
theorem words_cons_of_blank {c d : Char} (ink : isBlank c = false) (blank : isBlank d = true)
    (s : List Char) : words (c :: d :: s) = [c] :: words s := by
  rw [words, if_neg (by simp [ink]), if_pos blank, words_cons_blank blank]

/-- A character in front of another one that is no blank joins its word. -/
theorem words_cons_cons {c d : Char} (ink : isBlank c = false) (ink' : isBlank d = false)
    {s w : List Char} {ws : List (List Char)} (cut : words (d :: s) = w :: ws) :
    words (c :: d :: s) = (c :: w) :: ws := by
  rw [words, if_neg (by simp [ink]), if_neg (by simp [ink']), cut]

/-- A text that begins with no blank has a word, and the first character begins it. -/
theorem exists_words_cons {c : Char} (ink : isBlank c = false) (s : List Char) :
    ∃ w ws, words (c :: s) = (c :: w) :: ws := by
  induction s generalizing c with
  | nil => exact ⟨[], [], by simp [words, ink]⟩
  | cons d s ih =>
    by_cases blank : isBlank d = true
    · exact ⟨[], words s, words_cons_of_blank ink blank s⟩
    · have ink' : isBlank d = false := by simpa using blank
      obtain ⟨w, ws, cut⟩ := ih ink'
      exact ⟨d :: w, ws, words_cons_cons ink ink' cut⟩

/-- **A blank separates words.** -/
theorem words_append_blank {c : Char} (blank : isBlank c = true) (a b : List Char) :
    words (a ++ c :: b) = words a ++ words b := by
  induction a with
  | nil => exact words_cons_blank blank b
  | cons x a ih =>
    by_cases first : isBlank x = true
    · rw [List.cons_append, words_cons_blank first, words_cons_blank first, ih]
    have ink : isBlank x = false := by simpa using first
    cases a with
    | nil =>
      rw [List.cons_append, List.nil_append, words_cons_of_blank ink blank]
      simp [words, ink]
    | cons y a =>
      by_cases second : isBlank y = true
      · rw [List.cons_append, words_cons_blank second, words_cons_blank second] at ih
        rw [List.cons_append, List.cons_append, words_cons_of_blank ink second,
          words_cons_of_blank ink second, ih, List.cons_append]
      · have ink' : isBlank y = false := by simpa using second
        obtain ⟨w, ws, cut⟩ := exists_words_cons ink' a
        have cut' : words (y :: (a ++ c :: b)) = (y :: w) :: (ws ++ words b) := by
          rw [← List.cons_append, ih, cut, List.cons_append]
        rw [words_cons_cons ink ink' cut]
        exact words_cons_cons ink ink' cut'

/-- A text of blanks has no words. -/
theorem words_of_blanks {s : List Char} (blank : ∀ c ∈ s, isBlank c = true) : words s = [] := by
  induction s with
  | nil => rfl
  | cons c s ih =>
    obtain ⟨first, rest⟩ := List.forall_mem_cons.mp blank
    rw [words_cons_blank first, ih rest]

/-- Blanks behind a text add no words. -/
theorem words_append_blanks (a : List Char) {b : List Char} (blank : ∀ c ∈ b, isBlank c = true) :
    words (a ++ b) = words a := by
  cases b with
  | nil => rw [List.append_nil]
  | cons c b =>
    obtain ⟨first, rest⟩ := List.forall_mem_cons.mp blank
    rw [words_append_blank first, words_of_blanks rest, List.append_nil]

/-- Blanks in front of a text add no words. -/
theorem words_blanks_append {a : List Char} (blank : ∀ c ∈ a, isBlank c = true) (b : List Char) :
    words (a ++ b) = words b := by
  induction a with
  | nil => rfl
  | cons c a ih =>
    obtain ⟨first, rest⟩ := List.forall_mem_cons.mp blank
    rw [List.cons_append, words_cons_blank first, ih rest]

/-- Two texts have the same words, whatever stands in front of both. -/
def SameWords (s t : List Char) : Prop :=
  ∀ front, words (front ++ s) = words (front ++ t)

theorem SameWords.words_eq {s t : List Char} (h : SameWords s t) : words s = words t :=
  h []

/-- A character in front of both texts joins the first word of both. -/
theorem SameWords.cons {s t : List Char} (h : SameWords s t) (c : Char) :
    SameWords (c :: s) (c :: t) := by
  intro front
  have shift := h (front ++ [c])
  rwa [List.append_assoc, List.append_assoc] at shift

/-- Blanks may stand for other blanks. -/
theorem SameWords.cons_blank {s t spaces : List Char} (h : SameWords s t) {a b : Char}
    (left : isBlank a = true) (right : isBlank b = true) (blank : ∀ c ∈ spaces, isBlank c = true) :
    SameWords (a :: (spaces ++ s)) (b :: t) := by
  intro front
  rw [words_append_blank left, words_append_blank right, words_blanks_append blank, h.words_eq]

/-- A word: characters without a blank among them, at least one. -/
structure IsWordText (w : List Char) : Prop where
  /-- There is a character. -/
  ne_nil : w ≠ []
  /-- No character is a blank. -/
  ink : ∀ c ∈ w, isBlank c = false

/-- The test for a text without blanks decides. -/
theorem all_ink_iff {s : List Char} :
    s.all (! isBlank ·) = true ↔ ∀ c ∈ s, isBlank c = false := by
  simp

instance (w : List Char) : Decidable (IsWordText w) :=
  decidable_of_iff (w ≠ [] ∧ w.all (! isBlank ·) = true)
    ⟨fun h => ⟨h.1, all_ink_iff.mp h.2⟩, fun h => ⟨h.ne_nil, all_ink_iff.mpr h.ink⟩⟩

/-- A word by itself is its only word. -/
theorem words_of_isWordText {w : List Char} (h : IsWordText w) : words w = [w] := by
  obtain ⟨ne, ink⟩ := h
  induction w with
  | nil => exact absurd rfl ne
  | cons c w ih =>
    obtain ⟨first, rest⟩ := List.forall_mem_cons.mp ink
    cases w with
    | nil => simp [words, first]
    | cons d w =>
      exact words_cons_cons first (rest d List.mem_cons_self) (ih (List.cons_ne_nil d w) rest)

/-- **Joining words is undone by cutting.** -/
theorem words_join {ws : List (List Char)} (h : ∀ w ∈ ws, IsWordText w) :
    words ([' '].intercalate ws) = ws := by
  induction ws with
  | nil => rfl
  | cons w ws ih =>
    obtain ⟨first, rest⟩ := List.forall_mem_cons.mp h
    cases ws with
    | nil => rw [List.intercalate_singleton, words_of_isWordText first]
    | cons v ws =>
      rw [List.intercalate_cons_cons, List.append_assoc, List.singleton_append,
        words_append_blank (by decide), words_of_isWordText first, ih rest, List.singleton_append]

/-! ## Tight texts -/

/-- Single spaces are all the blanks that a text holds. They may stand at its ends. -/
structure Spaced (s : List Char) : Prop where
  /-- Each blank is a space. -/
  space : ∀ c ∈ s, isBlank c = true → c = ' '
  /-- No two blanks stand side by side. -/
  single : s.IsChain fun a b => isBlank a = true → isBlank b = false

/-- A text in which single spaces separate the words, with none of them at the ends. -/
structure Tight (s : List Char) : Prop extends Spaced s where
  /-- It begins with no blank. -/
  head : ∀ c ∈ s.head?, isBlank c = false
  /-- It ends with no blank. -/
  last : ∀ c ∈ s.getLast?, isBlank c = false

/-- The test for single spaces decides. -/
theorem spaced_iff {s : List Char} :
    Spaced s ↔ s.all (fun c => !isBlank c || c == ' ') = true ∧
      s.IsChain fun a b => isBlank a = true → isBlank b = false := by
  constructor
  · intro h
    refine ⟨List.all_eq_true.mpr fun c mem => ?_, h.single⟩
    cases blank : isBlank c with
    | false => rfl
    | true => rw [h.space c mem blank]; rfl
  · intro h
    refine ⟨fun c mem blank => ?_, h.2⟩
    have here := List.all_eq_true.mp h.1 c mem
    rw [blank] at here
    exact beq_iff_eq.mp here

/-- The test for texts without spaces at their ends decides. -/
theorem tight_iff {s : List Char} :
    Tight s ↔ Spaced s ∧ s.head?.all (! isBlank ·) = true ∧ s.getLast?.all (! isBlank ·) = true := by
  constructor
  · intro h
    exact ⟨h.toSpaced, by simpa [Option.all_eq_true] using h.head,
      by simpa [Option.all_eq_true] using h.last⟩
  · intro h
    exact ⟨h.1, by simpa [Option.all_eq_true] using h.2.1,
      by simpa [Option.all_eq_true] using h.2.2⟩

instance (s : List Char) : Decidable (Spaced s) :=
  decidable_of_iff _ spaced_iff.symm

instance (s : List Char) : Decidable (Tight s) :=
  decidable_of_iff _ tight_iff.symm

/-- A text without blanks is tight. -/
theorem tight_of_ink {s : List Char} (ink : ∀ c ∈ s, isBlank c = false) : Tight s where
  space c mem blank := by rw [ink c mem] at blank; cases blank
  single := by
    induction s with
    | nil => exact .nil
    | cons c s ih =>
      obtain ⟨first, rest⟩ := List.forall_mem_cons.mp ink
      refine (ih rest).cons fun d _ blank => ?_
      rw [first] at blank
      cases blank
  head c mem := ink c (List.mem_of_head? mem)
  last c mem := ink c (List.mem_of_getLast? mem)

/-- Two spaced texts side by side, where not both are blank at the seam. -/
theorem Spaced.append {a b : List Char} (ha : Spaced a) (hb : Spaced b)
    (seam : ∀ x ∈ a.getLast?, ∀ y ∈ b.head?, isBlank x = true → isBlank y = false) :
    Spaced (a ++ b) where
  space c mem := (List.mem_append.mp mem).elim (ha.space c) (hb.space c)
  single := ha.single.append hb.single seam

/-- A spaced text between two characters that are no blanks is tight. -/
theorem Spaced.tight_between {s : List Char} (h : Spaced s) {c d : Char} (left : isBlank c = false)
    (right : isBlank d = false) : Tight (c :: s ++ [d]) := by
  have front : Spaced ([c] ++ s) := by
    refine (tight_of_ink (by simpa using left)).toSpaced.append h fun x last y _ blank => ?_
    obtain rfl : c = x := by simpa using last
    rw [left] at blank
    cases blank
  refine ⟨front.append (tight_of_ink (by simpa using right)).toSpaced fun x _ y first _ => ?_,
    fun x first => ?_, fun x last => ?_⟩
  · obtain rfl : d = y := by simpa using first
    exact right
  · obtain rfl : c = x := by simpa using first
    exact left
  · rw [List.getLast?_concat] at last
    cases last
    exact right

/-- Two tight texts with a space between. -/
theorem Tight.append_space {a b : List Char} (ha : Tight a) (hb : Tight b) (filled : a ≠ [])
    (filled' : b ≠ []) : Tight (a ++ ' ' :: b) := by
  have gap : Spaced [' '] := ⟨by simp, .singleton _⟩
  have back : Spaced ([' '] ++ b) :=
    gap.append hb.toSpaced fun x _ y first _ => hb.head y first
  refine ⟨ha.toSpaced.append back fun x last y _ blank => ?_, fun x first => ?_, fun x last => ?_⟩
  · rw [ha.last x last] at blank
    cases blank
  · rw [List.head?_append_of_ne_nil _ filled] at first
    exact ha.head x first
  · rw [List.getLast?_append_of_ne_nil _ (List.cons_ne_nil _ _),
      List.getLast?_cons_of_ne_nil filled'] at last
    exact hb.last x last

/-- A tight text with a character more that is no blank. -/
theorem Tight.append_ink {s : List Char} (h : Tight s) {c : Char} (ink : isBlank c = false) :
    Tight (s ++ [c]) := by
  have one : Tight [c] := tight_of_ink (by simpa using ink)
  refine ⟨h.toSpaced.append one.toSpaced fun x _ y first _ => one.head y first, fun x first => ?_,
    fun x last => ?_⟩
  · cases s with
    | nil => exact one.head x first
    | cons d s => exact h.head x first
  · rw [List.getLast?_concat] at last
    cases last
    exact ink

/-- Tight texts joined by single spaces. -/
theorem tight_join {ss : List (List Char)} (tight : ∀ s ∈ ss, Tight s ∧ s ≠ []) :
    Tight ([' '].intercalate ss) ∧ (ss ≠ [] → [' '].intercalate ss ≠ []) := by
  induction ss with
  | nil => exact ⟨tight_of_ink fun c mem => absurd mem List.not_mem_nil, (absurd rfl ·)⟩
  | cons s ss ih =>
    obtain ⟨⟨first, filled⟩, rest⟩ := List.forall_mem_cons.mp tight
    cases ss with
    | nil =>
      rw [List.intercalate_singleton]
      exact ⟨first, fun _ => filled⟩
    | cons t ss =>
      obtain ⟨behind, filled'⟩ := ih rest
      rw [List.intercalate_cons_cons, List.append_assoc, List.singleton_append]
      refine ⟨first.append_space behind filled (filled' (List.cons_ne_nil t ss)), fun _ => ?_⟩
      exact List.append_ne_nil_of_left_ne_nil filled _

/-- Behind a first character that is followed by no blank, a tight text is tight. -/
theorem Tight.tail {c d : Char} {s : List Char} (h : Tight (c :: d :: s))
    (ink : isBlank d = false) : Tight (d :: s) where
  space x mem := h.space x (List.mem_cons_of_mem c mem)
  single := h.single.tail
  head x first := by
    obtain rfl : d = x := by simpa using first
    exact ink
  last x last := h.last x (by rwa [List.getLast?_cons_cons])

/-- A blank behind the first character of a tight text is a space, and another tight text follows.
-/
theorem Tight.after_space {c d : Char} {s : List Char} (h : Tight (c :: d :: s))
    (blank : isBlank d = true) : d = ' ' ∧ Tight s ∧ s ≠ [] := by
  have space : d = ' ' := h.space d (List.mem_cons_of_mem c List.mem_cons_self) blank
  cases s with
  | nil =>
    have ink := h.last d rfl
    rw [blank] at ink
    cases ink
  | cons e s =>
    have ink : isBlank e = false := (List.isChain_cons_cons.mp h.single.tail).1 blank
    refine ⟨space, ⟨⟨fun x mem => ?_, h.single.tail.tail⟩, fun x first => ?_, fun x last => ?_⟩,
      List.cons_ne_nil e s⟩
    · exact h.space x (List.mem_cons_of_mem c (List.mem_cons_of_mem d mem))
    · obtain rfl : e = x := by simpa using first
      exact ink
    · exact h.last x (by rwa [List.getLast?_cons_cons, List.getLast?_cons_cons])

/-- **A tight text is its words joined by single spaces.** -/
theorem Tight.collapse_eq : ∀ {s : List Char}, Tight s → collapse s = s
  | [], _ => rfl
  | [c], h => by
    have ink : isBlank c = false := h.head c rfl
    simp [collapse, words, ink]
  | c :: d :: s, h => by
    have ink : isBlank c = false := h.head c rfl
    by_cases blank : isBlank d = true
    · obtain ⟨rfl, behind, filled⟩ := h.after_space blank
      have joined := behind.collapse_eq
      obtain ⟨e, s, rfl⟩ := List.exists_cons_of_ne_nil filled
      obtain ⟨w, ws, cut⟩ := exists_words_cons (behind.head e rfl) s
      rw [collapse, cut] at joined
      rw [collapse, words_cons_of_blank ink blank, cut, List.intercalate_cons_cons, joined]
      rfl
    · have ink' : isBlank d = false := by simpa using blank
      have joined := (h.tail ink').collapse_eq
      obtain ⟨w, ws, cut⟩ := exists_words_cons ink' s
      rw [collapse, cut] at joined
      rw [collapse, words_cons_cons ink ink' cut, List.intercalate_cons_cons_left, joined]

/-! ## Lists of items -/

theorem Tight.trimmed {s : List Char} (h : Tight s) : Trimmed s where
  head := h.head
  last := h.last

/-- A character of joined texts is one of the separator or of a text. -/
theorem mem_of_mem_intercalate {c : Char} {sep : List Char} {items : List (List Char)}
    (mem : c ∈ sep.intercalate items) : c ∈ sep ∨ ∃ v ∈ items, c ∈ v := by
  induction items with
  | nil => cases mem
  | cons v items ih =>
    cases items with
    | nil =>
      rw [List.intercalate_singleton] at mem
      exact .inr ⟨v, List.mem_cons_self, mem⟩
    | cons w items =>
      rw [List.intercalate_cons_cons, List.mem_append, List.mem_append] at mem
      obtain (mem | mem) | mem := mem
      · exact .inr ⟨v, List.mem_cons_self, mem⟩
      · exact .inl mem
      · obtain mem | ⟨u, inItems, mem⟩ := ih mem
        · exact .inl mem
        · exact .inr ⟨u, List.mem_cons_of_mem v inItems, mem⟩

/-- A comma and a space between items may as well be a comma between items that begin with a space,
the first one excepted. -/
theorem commaJoin_eq (v : List Char) (vs : List (List Char)) :
    [',', ' '].intercalate (v :: vs) = [','].intercalate (v :: vs.map ([' '] ++ ·)) := by
  induction vs generalizing v with
  | nil => rfl
  | cons w vs ih =>
    rw [List.intercalate_cons_cons, List.map_cons, List.intercalate_cons_cons,
      List.singleton_append (l := w), List.intercalate_cons_cons_left, ← ih w]
    simp

/-- **Joining items by commas is undone by cutting at commas.** -/
theorem commaList_join {items : List (List Char)} (tight : ∀ v ∈ items, Tight v ∧ v ≠ [])
    (noComma : ∀ v ∈ items, ',' ∉ v) : commaList ([',', ' '].intercalate items) = items := by
  cases items with
  | nil => rfl
  | cons v vs =>
    have noComma' : ∀ piece ∈ v :: vs.map ([' '] ++ ·), ',' ∉ piece := by
      obtain ⟨first, rest⟩ := List.forall_mem_cons.mp noComma
      refine List.forall_mem_cons.mpr ⟨first, List.forall_mem_map.mpr fun w mem => ?_⟩
      simpa using rest w mem
    obtain ⟨⟨first, _⟩, rest⟩ := List.forall_mem_cons.mp tight
    have trimmed : (v :: vs.map ([' '] ++ ·)).map trim = v :: vs := by
      have behind : (vs.map ([' '] ++ ·)).map trim = vs := by
        rw [List.map_map]
        refine (List.map_congr_left fun w mem => ?_).trans (List.map_id vs)
        simpa using (rest w mem).1.trimmed.trim_eq [' '] [] (by simp [isBlank_space]) (by simp)
      have front : trim v = v := trim_eq_self_iff.mpr first.trimmed
      rw [List.map_cons, behind, front]
    rw [commaList, commaJoin_eq, List.splitOn_intercalate ',' noComma' (List.cons_ne_nil _ _),
      trimmed, List.filter_eq_self.mpr fun w mem => ?_]
    simpa using (tight w mem).2

/-- Tight items joined by a comma and a space. -/
theorem tight_commaJoin {items : List (List Char)} (tight : ∀ v ∈ items, Tight v ∧ v ≠ []) :
    Tight ([',', ' '].intercalate items) ∧ (items ≠ [] → [',', ' '].intercalate items ≠ []) := by
  induction items with
  | nil => exact ⟨tight_of_ink fun c mem => absurd mem List.not_mem_nil, (absurd rfl ·)⟩
  | cons v items ih =>
    obtain ⟨⟨first, filled⟩, rest⟩ := List.forall_mem_cons.mp tight
    cases items with
    | nil =>
      rw [List.intercalate_singleton]
      exact ⟨first, fun _ => filled⟩
    | cons w items =>
      obtain ⟨behind, filled'⟩ := ih rest
      have regroup : [',', ' '].intercalate (v :: w :: items) =
          (v ++ [',']) ++ ' ' :: [',', ' '].intercalate (w :: items) := by
        rw [List.intercalate_cons_cons]
        simp
      rw [regroup]
      refine ⟨(first.append_ink (by decide)).append_space behind (by simp)
        (filled' (List.cons_ne_nil w items)), fun _ => by simp⟩

end RouteDoc.Text
