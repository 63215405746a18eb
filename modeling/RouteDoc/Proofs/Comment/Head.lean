import RouteDoc.Comment.Override
import RouteDoc.Proofs.Comment.Annotations
import RouteDoc.Proofs.Text.Words

/-!
# The head of a record

A record begins with a type and a name. Both are read off the text in front of everything else, and
neither holds an `@`, so no annotation reaches into the head.

## Main statements

* `head?_append`: a type and a name, as they are written, are the head of what they begin.
* `exists_of_head?`: a head that is read stands at the beginning of the text.
-/

set_option autoImplicit false

namespace RouteDoc.Override

open Text Comment

/-! ## Name characters -/

/-- No character of a name is a blank. -/
theorem isBlank_eq_false_of_isNameChar {c : Char} (h : isNameChar c = true) :
    isBlank c = false := by
  rw [isNameChar, Bool.or_eq_true, beq_iff_eq] at h
  cases h with
  | inl word => exact isBlank_eq_false_of_isWord word
  | inr dot => rw [dot]; decide

/-! ## Bracket groups -/

/-- A bracket group with that text inside. -/
def group (inside : List Char) : List Char :=
  '[' :: (inside ++ [']'])

/-- A bracket group is read if it is closed. -/
theorem brackets_cons {r rest : List Char} (close : r.dropWhile isNameChar = ']' :: rest) :
    brackets ('[' :: r) =
      ('[' :: r.takeWhile isNameChar ++ ']' :: (brackets rest).1, (brackets rest).2) := by
  rw [brackets]
  split
  next rest' close' =>
    rw [close] at close'
    cases close'
    rfl
  next open' => exact absurd close (open' rest)

theorem brackets_of_head_ne {s : List Char} (other : ∀ c ∈ s.head?, c ≠ '[') :
    brackets s = ([], s) := by
  cases s with
  | nil => rw [brackets]; simp
  | cons c s =>
    rw [brackets]
    intro r same
    cases same
    exact other '[' rfl rfl

/-- Any number of groups is read, up to what is no bracket. -/
theorem brackets_append {groups : List (List Char)}
    (inside : ∀ g ∈ groups, ∀ c ∈ g, isNameChar c = true) {rest : List Char}
    (stop : ∀ c ∈ rest.head?, c ≠ '[') :
    brackets (groups.flatMap group ++ rest) = (groups.flatMap group, rest) := by
  induction groups with
  | nil => exact brackets_of_head_ne stop
  | cons g groups ih =>
    obtain ⟨first, behind⟩ := List.forall_mem_cons.mp inside
    have stop' : ∀ c ∈ (']' :: (groups.flatMap group ++ rest)).head?, isNameChar c = false := by
      intro c mem
      cases mem
      decide
    have text : (g :: groups).flatMap group ++ rest =
        '[' :: (g ++ ']' :: (groups.flatMap group ++ rest)) := by
      simp [group]
    rw [text, brackets_cons (dropWhile_append_of_stop first stop'),
      takeWhile_append_of_stop first stop', ih behind]
    simp [group]

/-- Bracket groups are what a text begins with, and no annotation begins in them. -/
theorem brackets_text (s : List Char) :
    (brackets s).1 ++ (brackets s).2 = s ∧ '@' ∉ (brackets s).1 := by
  fun_induction brackets s with
  | case1 r rest close more rest' split ih =>
    rw [split] at ih
    obtain ⟨text, noAt⟩ := ih
    have inside : '@' ∉ r.takeWhile isNameChar := by
      intro mem
      exact absurd (List.mem_takeWhile_imp mem) (by decide)
    refine ⟨?_, by simp [inside, noAt]⟩
    rw [← text] at close
    have whole : r.takeWhile isNameChar ++ ']' :: (more ++ rest') = r := by
      rw [← close, List.takeWhile_append_dropWhile]
    simpa using whole
  | case2 r open' => exact ⟨rfl, List.not_mem_nil⟩
  | case3 s other => exact ⟨rfl, List.not_mem_nil⟩

/-! ## Types and names -/

/-- The type at the start of a text, and what follows it. -/
def typePart (s : List Char) : List Char × List Char :=
  match s.dropWhile isWord with
  | '[' :: ']' :: r => (s.takeWhile isWord ++ ['[', ']'], r)
  | r => (s.takeWhile isWord, r)

/-- The name behind the blanks at the start of a text, and what follows it. -/
def namePart? : List Char → Option (List Char × List Char)
  | [] => none
  | c :: r =>
    if isBlank c && !((trimStart r).takeWhile isNameChar).isEmpty then
      let groups := brackets ((trimStart r).dropWhile isNameChar)
      some ((trimStart r).takeWhile isNameChar ++ groups.1, groups.2)
    else none

/-- The head, given the word and the type in front of a text. -/
def headBehind (word typeName : List Char) : List Char → Option Head
  | c :: r =>
    if !word.isEmpty && isBlank c then
      if ((trimStart r).takeWhile isNameChar).isEmpty then none
      else
        let groups := brackets ((trimStart r).dropWhile isNameChar)
        some ⟨typeName, (trimStart r).takeWhile isNameChar ++ groups.1, groups.2⟩
    else none
  | [] => none

/-- Behind a word the head hangs on whether a name follows. -/
theorem headBehind_eq (word typeName rest : List Char) :
    headBehind word typeName rest = if word.isEmpty then none
      else (namePart? rest).map fun n => ⟨typeName, n.1, n.2⟩ := by
  cases rest with
  | nil => simp [headBehind, namePart?]
  | cons c r =>
    cases filled : word.isEmpty with
    | true => simp [headBehind, filled]
    | false =>
      cases blank : isBlank c with
      | false => simp [headBehind, namePart?, filled, blank]
      | true =>
        cases stem : ((trimStart r).takeWhile isNameChar).isEmpty with
        | true => simp [headBehind, namePart?, filled, blank, stem]
        | false => simp [headBehind, namePart?, filled, blank, stem]

/-- The head is a type and the name behind it. -/
theorem head?_eq (s : List Char) :
    head? s = if (s.takeWhile isWord).isEmpty then none
      else (namePart? (typePart s).2).map fun n => ⟨(typePart s).1, n.1, n.2⟩ := by
  have parts : head? s = headBehind (s.takeWhile isWord) (typePart s).1 (typePart s).2 := rfl
  rw [parts, headBehind_eq]

/-! ## Reading what is written -/

/-- A type, as it is written: word characters, perhaps with an empty pair of brackets. -/
def IsTypeName (s : List Char) : Prop :=
  ∃ word : List Char, word ≠ [] ∧ (∀ c ∈ word, isWord c = true) ∧
    (s = word ∨ s = word ++ ['[', ']'])

/-- A name, as it is written: name characters and any number of bracket groups behind them. -/
def IsName (s : List Char) : Prop :=
  ∃ (stem : List Char) (groups : List (List Char)), stem ≠ [] ∧
    (∀ c ∈ stem, isNameChar c = true) ∧ (∀ g ∈ groups, ∀ c ∈ g, isNameChar c = true) ∧
    s = stem ++ groups.flatMap group

theorem isBlank_eq_false_of_bracket {c : Char} (h : c = '[' ∨ c = ']') : isBlank c = false := by
  rcases h with rfl | rfl <;> decide

theorem IsTypeName.isWordText {s : List Char} (h : IsTypeName s) : IsWordText s := by
  obtain ⟨word, filled, inWord, rfl | rfl⟩ := h
  · exact ⟨filled, fun c mem => isBlank_eq_false_of_isWord (inWord c mem)⟩
  · refine ⟨List.append_ne_nil_of_left_ne_nil filled _, fun c mem => ?_⟩
    cases List.mem_append.mp mem with
    | inl mem => exact isBlank_eq_false_of_isWord (inWord c mem)
    | inr mem => exact isBlank_eq_false_of_bracket (by simpa using mem)

theorem IsName.isWordText {s : List Char} (h : IsName s) : IsWordText s := by
  obtain ⟨stem, groups, filled, inStem, inGroups, rfl⟩ := h
  refine ⟨List.append_ne_nil_of_left_ne_nil filled _, fun c mem => ?_⟩
  cases List.mem_append.mp mem with
  | inl mem => exact isBlank_eq_false_of_isNameChar (inStem c mem)
  | inr mem =>
    obtain ⟨g, inGroup, mem⟩ := List.mem_flatMap.mp mem
    have cases : c = '[' ∨ c ∈ g ∨ c = ']' := by simpa [group] using mem
    rcases cases with left | mem | right
    · exact isBlank_eq_false_of_bracket (.inl left)
    · exact isBlank_eq_false_of_isNameChar (inGroups g inGroup c mem)
    · exact isBlank_eq_false_of_bracket (.inr right)

/-- A type ends at the space behind it. -/
theorem IsTypeName.typePart_append {typeName : List Char} (h : IsTypeName typeName)
    (rest : List Char) :
    ((typeName ++ ' ' :: rest).takeWhile isWord).isEmpty = false ∧
      typePart (typeName ++ ' ' :: rest) = (typeName, ' ' :: rest) := by
  obtain ⟨word, filled, inWord, rfl | rfl⟩ := h
  · have stop : ∀ c ∈ (' ' :: rest).head?, isWord c = false := by
      intro c mem
      cases mem
      decide
    rw [typePart, takeWhile_append_of_stop inWord stop, dropWhile_append_of_stop inWord stop]
    exact ⟨List.isEmpty_eq_false_iff.mpr filled, rfl⟩
  · have stop : ∀ c ∈ (['[', ']'] ++ ' ' :: rest).head?, isWord c = false := by
      intro c mem
      cases mem
      decide
    rw [List.append_assoc, typePart, takeWhile_append_of_stop inWord stop,
      dropWhile_append_of_stop inWord stop]
    exact ⟨List.isEmpty_eq_false_iff.mpr filled, rfl⟩

/-- A name is read from the space in front of it to the one behind it. -/
theorem IsName.namePart?_append {name rest : List Char} (h : IsName name)
    (stop : ∀ c ∈ rest.head?, c = ' ') : namePart? (' ' :: (name ++ rest)) = some (name, rest) := by
  obtain ⟨stem, groups, filled, inStem, inGroups, rfl⟩ := h
  have stop' : ∀ c ∈ (groups.flatMap group ++ rest).head?, isNameChar c = false := by
    intro c mem
    cases groups with
    | nil => rw [stop c mem]; decide
    | cons g groups => cases mem; decide
  have noGroup : ∀ c ∈ rest.head?, c ≠ '[' := by
    intro c mem
    rw [stop c mem]
    decide
  have start : trimStart (stem ++ (groups.flatMap group ++ rest)) =
      stem ++ (groups.flatMap group ++ rest) := by
    obtain ⟨c, stem, rfl⟩ := List.exists_cons_of_ne_nil filled
    have ink : isBlank c = false := isBlank_eq_false_of_isNameChar (inStem c List.mem_cons_self)
    exact List.dropWhile_cons_of_neg (by simp [ink])
  have some' : (isBlank ' ' && !stem.isEmpty) = true := by
    rw [List.isEmpty_eq_false_iff.mpr filled]
    decide
  rw [List.append_assoc, namePart?, start, takeWhile_append_of_stop inStem stop',
    dropWhile_append_of_stop inStem stop', brackets_append inGroups noGroup, if_pos some']

/-- A type and a name, as they are written, are the head of what they begin. -/
theorem head?_append {typeName name rest : List Char} (ht : IsTypeName typeName)
    (hn : IsName name) (stop : ∀ c ∈ rest.head?, c = ' ') :
    head? (typeName ++ ' ' :: (name ++ rest)) = some ⟨typeName, name, rest⟩ := by
  obtain ⟨filled, typed⟩ := ht.typePart_append (name ++ rest)
  rw [head?_eq, filled, typed, hn.namePart?_append stop]
  rfl

/-! ## What is read -/

/-- Reading a type takes its own text and no mark. -/
theorem typePart_text (s : List Char) :
    (typePart s).1 ++ (typePart s).2 = s ∧ '@' ∉ (typePart s).1 := by
  have noAt : '@' ∉ s.takeWhile isWord := by
    intro mem
    exact absurd (List.mem_takeWhile_imp mem) (by decide)
  rw [typePart]
  split
  next r list =>
    refine ⟨?_, by simp [noAt]⟩
    rw [List.append_assoc]
    change s.takeWhile isWord ++ '[' :: ']' :: r = s
    rw [← list, List.takeWhile_append_dropWhile]
  next r other => exact ⟨List.takeWhile_append_dropWhile, noAt⟩

/-- Reading a name takes the blanks in front of it and its own text, without a mark. -/
theorem namePart?_text {s name rest : List Char} (h : namePart? s = some (name, rest)) :
    ∃ gap, s = gap ++ name ++ rest ∧ '@' ∉ gap ++ name ∧ ∀ c ∈ gap, isBlank c = true := by
  cases s with
  | nil => cases h
  | cons c r =>
    rw [namePart?] at h
    split at h
    next found =>
      obtain ⟨blank, -⟩ := Bool.and_eq_true_iff.mp found
      cases h
      obtain ⟨groups, noAt⟩ := brackets_text ((trimStart r).dropWhile isNameChar)
      have inGap : ∀ x ∈ c :: r.takeWhile isBlank, isBlank x = true :=
        List.forall_mem_cons.mpr ⟨blank, fun _ mem => List.mem_takeWhile_imp mem⟩
      have noAtGap : '@' ∉ c :: r.takeWhile isBlank := by
        intro mem
        exact absurd (inGap '@' mem) (by decide)
      have noAtStem : '@' ∉ (trimStart r).takeWhile isNameChar := by
        intro mem
        exact absurd (List.mem_takeWhile_imp mem) (by decide)
      refine ⟨c :: r.takeWhile isBlank, ?_, ?_, inGap⟩
      · rw [List.append_assoc, List.append_assoc, groups, List.takeWhile_append_dropWhile,
          List.cons_append, trimStart, List.takeWhile_append_dropWhile]
      · rw [List.mem_append, List.mem_append, not_or, not_or]
        exact ⟨noAtGap, noAtStem, noAt⟩
    next => cases h

/-- A head that is read stands at the beginning of the text, and no annotation begins in it. -/
theorem exists_of_head? {s : List Char} {h : Head} (read : head? s = some h) :
    ∃ gap, s = h.typeName ++ gap ++ h.name ++ h.rest ∧ (∀ c ∈ gap, isBlank c = true) ∧
      '@' ∉ h.typeName ++ gap ++ h.name := by
  rw [head?_eq] at read
  split at read
  next => cases read
  next =>
    obtain ⟨⟨name, rest⟩, named, rfl⟩ := Option.map_eq_some_iff.mp read
    obtain ⟨text, noAt⟩ := typePart_text s
    obtain ⟨gap, behind, noAt', blanks⟩ := namePart?_text named
    refine ⟨gap, ?_, blanks, ?_⟩
    · rw [List.append_assoc, List.append_assoc, ← List.append_assoc gap, ← behind, text]
    · rw [List.append_assoc, List.mem_append, not_or]
      exact ⟨noAt, noAt'⟩

end RouteDoc.Override
