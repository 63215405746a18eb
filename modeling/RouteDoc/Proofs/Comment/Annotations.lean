import RouteDoc.Comment.Annotation
import RouteDoc.Proofs.Text.Spans

/-!
# What recognisers find

The two recognisers of annotations look at the beginning of a text and want an `@` there. So a
stretch without `@` is cut into plain characters, and cutting goes on behind it as if it were not
there; and where a recogniser reads an annotation off the beginning of a text, cutting goes on
behind the annotation.

## Main statements

* `pieces_append`: the pieces of a stretch without `@`, and of what follows.
* `pieces_of_reads`: the pieces of an annotation, and of what follows.
* `reads_exampleNote`, `reads_enumNote`: the two annotations as they are usually written.
* `exists_of_enum?`: a value list is its mark and everything up to the next `@`.
-/

set_option autoImplicit false

namespace RouteDoc.Comment

open Text

/-! ## Cutting -/

/-- The annotations that a recogniser finds begin with `@`. -/
def Recogniser.Marked (r : Recogniser) : Prop :=
  ∀ (c : Char) (s : List Char), c ≠ '@' → r (c :: s) = none

/-- A recogniser reads an annotation with that payload and that text off the beginning of a text
which goes on with `rest`. -/
def Recogniser.Reads (r : Recogniser) (payload text rest : List Char) : Prop :=
  ∃ found, r (text ++ rest) = some found ∧ found.payload = payload ∧ found.width = text.length

theorem pieces_cons_of_none {r : Recogniser} {c : Char} {s : List Char} (none : r (c :: s) = none) :
    pieces r (c :: s) = .plain c :: pieces r s := by
  rw [pieces, none]

/-- Where an annotation begins it is a piece, and the others are those of the text behind it. -/
theorem pieces_cons_of_some {r : Recogniser} {c : Char} {s : List Char} {found : Found (c :: s)}
    (some : r (c :: s) = some found) :
    pieces r (c :: s) = .note found.payload ((c :: s).take found.width) ::
      pieces r ((c :: s).drop found.width) := by
  rw [pieces, some]

/-- An annotation is one piece. -/
theorem pieces_of_reads {r : Recogniser} {payload text rest : List Char}
    (reads : r.Reads payload text rest) :
    pieces r (text ++ rest) = .note payload text :: pieces r rest := by
  obtain ⟨found, recognised, rfl, width⟩ := reads
  cases text with
  | nil => exact absurd width (Nat.pos_iff_ne_zero.mp found.width_pos)
  | cons c text =>
    have step : pieces r (c :: text ++ rest) = _ := pieces_cons_of_some recognised
    change _ = .note found.payload ((c :: text ++ rest).take found.width) ::
      pieces r ((c :: text ++ rest).drop found.width) at step
    rw [step, width, List.take_left, List.drop_left]

/-- A stretch of text is cut into its characters, whatever follows. -/
def Recogniser.Skips (r : Recogniser) (s : List Char) : Prop :=
  ∀ rest, pieces r (s ++ rest) = s.map .plain ++ pieces r rest

/-- A stretch without `@` is skipped. -/
theorem Recogniser.Marked.skips {r : Recogniser} (marked : r.Marked) {s : List Char}
    (noAt : '@' ∉ s) : r.Skips s := by
  intro rest
  induction s with
  | nil => rfl
  | cons c s ih =>
    rw [List.mem_cons, not_or] at noAt
    rw [List.cons_append, pieces_cons_of_none (marked c _ (Ne.symm noAt.1)), ih noAt.2]
    rfl

/-- So is a mark that begins no annotation of that kind, with what follows up to the next one. -/
theorem Recogniser.Marked.skips_cons {r : Recogniser} (marked : r.Marked) {s : List Char}
    (other : ∀ rest, r ('@' :: (s ++ rest)) = none) (noAt : '@' ∉ s) : r.Skips ('@' :: s) := by
  intro rest
  rw [List.cons_append, pieces_cons_of_none (other rest), marked.skips noAt]
  rfl

theorem Recogniser.Skips.append {r : Recogniser} {s t : List Char} (hs : r.Skips s)
    (ht : r.Skips t) : r.Skips (s ++ t) := by
  intro rest
  rw [List.append_assoc, hs, ht, List.map_append, List.append_assoc]

@[simp] theorem payloads_nil (r : Recogniser) : payloads r [] = [] := by
  rw [payloads, pieces]
  rfl

@[simp] theorem erase_nil (r : Recogniser) : erase r [] = [] := by
  rw [erase, pieces]
  rfl

/-- There are no annotations in a stretch that is skipped. -/
theorem Recogniser.Skips.payloads_append {r : Recogniser} {s : List Char} (h : r.Skips s)
    (rest : List Char) : payloads r (s ++ rest) = payloads r rest := by
  simp [payloads, h rest]

/-- A stretch that is skipped stays when annotations are taken out. -/
theorem Recogniser.Skips.erase_append {r : Recogniser} {s : List Char} (h : r.Skips s)
    (rest : List Char) : erase r (s ++ rest) = s ++ erase r rest := by
  rw [erase, h, List.map_append, List.map_map]
  exact congrArg (· ++ _) (List.map_id s)

/-- An annotation that is read comes before those behind it. -/
theorem Recogniser.Reads.payloads_append {r : Recogniser} {payload text rest : List Char}
    (h : r.Reads payload text rest) :
    payloads r (text ++ rest) = payload :: payloads r rest := by
  rw [payloads, pieces_of_reads h]
  rfl

/-- A space is left of an annotation that is taken out. -/
theorem Recogniser.Reads.erase_append {r : Recogniser} {payload text rest : List Char}
    (h : r.Reads payload text rest) : erase r (text ++ rest) = ' ' :: erase r rest := by
  rw [erase, pieces_of_reads h]
  rfl

/-! ## The two annotations -/

theorem afterKeyword?_of_head_ne {k c : Char} (other : k ≠ c) (keyword s : List Char) :
    afterKeyword? (k :: keyword) (c :: s) = none := by
  rw [afterKeyword?, after?_of_head_ne other]

/-- Behind a keyword and a blank, more blanks do not matter. -/
theorem afterKeyword?_append {c : Char} (blank : isBlank c = true) (keyword s rest : List Char) :
    afterKeyword? keyword (keyword ++ c :: s ++ rest) = some (trimStart (s ++ rest)) := by
  rw [afterKeyword?, List.append_assoc, after?_append]
  exact if_pos blank

/-- Both kinds of annotations begin with their mark. -/
theorem marked_example? : Recogniser.Marked example? := by
  intro c s other
  have missing : afterKeyword? "@example".toList (c :: s) = none :=
    afterKeyword?_of_head_ne (Ne.symm other) _ _
  rw [example?, missing]

theorem marked_enum? : Recogniser.Marked enum? := by
  intro c s other
  have missing : afterKeyword? "@enum".toList (c :: s) = none :=
    afterKeyword?_of_head_ne (Ne.symm other) _ _
  rw [enum?, missing]

/-- The examples of a text are read where the keyword is followed by a value. -/
theorem reads_example {text rest r payload : List Char}
    (keyword : afterKeyword? "@example".toList (text ++ rest) = some r)
    (value : exampleValue? r = some (payload, rest)) (filled : text ≠ []) :
    Recogniser.Reads example? payload text rest := by
  have pos : 0 < text.length := List.length_pos_iff.mpr filled
  have shorter : rest.length < (text ++ rest).length := by
    rw [List.length_append]
    omega
  refine ⟨⟨payload, (text ++ rest).length - rest.length, by omega⟩, ?_, rfl, ?_⟩
  · rw [example?, keyword]
    simp only [value, dif_pos shorter]
  · simp

/-- A quoted text ends at the next quote. -/
theorem quoted?_append {quote : Char} {s : List Char} (noQuote : quote ∉ s) (rest : List Char) :
    quoted? quote (quote :: (s ++ quote :: rest)) = some (quote :: s ++ [quote], rest) := by
  have inside : ∀ c ∈ s, (c != quote) = true :=
    fun c mem => bne_iff_ne.mpr fun same => noQuote (same ▸ mem)
  have stop : ∀ c ∈ (quote :: rest).head?, (c != quote) = false := by simp
  rw [quoted?, if_pos (beq_self_eq_true quote), dropWhile_append_of_stop inside stop,
    takeWhile_append_of_stop inside stop]

/-- An example annotation: the value between double quotes. -/
def exampleNote (value : List Char) : List Char :=
  "@example".toList ++ ' ' :: ('"' :: value ++ ['"'])

/-- An enum annotation with that list. -/
def enumNote (list : List Char) : List Char :=
  "@enum".toList ++ ' ' :: list

theorem exampleNote_ne_nil (value : List Char) : exampleNote value ≠ [] :=
  List.append_ne_nil_of_right_ne_nil _ (List.cons_ne_nil _ _)

theorem enumNote_ne_nil (list : List Char) : enumNote list ≠ [] :=
  List.append_ne_nil_of_right_ne_nil _ (List.cons_ne_nil _ _)

/-- An example is read back, with its quotes, whatever stands behind it. -/
theorem reads_exampleNote {s : List Char} (noQuote : '"' ∉ s) (rest : List Char) :
    Recogniser.Reads example? ('"' :: s ++ ['"']) (exampleNote s) rest := by
  have keyword : afterKeyword? "@example".toList (exampleNote s ++ rest) =
      some ('"' :: (s ++ '"' :: rest)) := by
    have text : exampleNote s = "@example".toList ++ ' ' :: ('"' :: s ++ ['"']) := rfl
    rw [text, afterKeyword?_append isBlank_space, trimStart, List.cons_append, List.cons_append,
      List.dropWhile_cons_of_neg (by decide), List.append_assoc, List.singleton_append]
  refine reads_example keyword ?_ (exampleNote_ne_nil s)
  rw [exampleValue?, quoted?_append noQuote]
  rfl

/-- A list ends where the text ends, or before another annotation. -/
theorem reads_enumNote {s : List Char} (ink : ∀ c ∈ s.head?, isBlank c = false) (noAt : '@' ∉ s)
    {rest : List Char} (stop : ∀ c ∈ rest.head?, c = '@') (filled : s ≠ []) :
    Recogniser.Reads enum? s (enumNote s) rest := by
  have keyword : afterKeyword? "@enum".toList (enumNote s ++ rest) = some (s ++ rest) := by
    have start : trimStart (s ++ rest) = s ++ rest := by
      obtain ⟨c, s, rfl⟩ := List.exists_cons_of_ne_nil filled
      exact List.dropWhile_cons_of_neg (by simp [ink c rfl])
    rw [enumNote, afterKeyword?_append isBlank_space, start]
  have inside : ∀ c ∈ s, (c != '@') = true := by
    intro c mem
    exact bne_iff_ne.mpr fun same => noAt (same ▸ mem)
  have stop' : ∀ c ∈ rest.head?, (c != '@') = false := by
    intro c first
    rw [stop c first]
    decide
  have shorter : rest.length < (enumNote s ++ rest).length := by
    rw [List.length_append]
    exact Nat.lt_add_of_pos_left (List.length_pos_iff.mpr (enumNote_ne_nil s))
  refine ⟨⟨s, (enumNote s ++ rest).length - rest.length, by omega⟩, ?_, rfl, ?_⟩
  · rw [enum?, keyword]
    simp only [dropWhile_append_of_stop inside stop', takeWhile_append_of_stop inside stop',
      dif_pos shorter]
  · change (enumNote s ++ rest).length - rest.length = _
    rw [List.length_append, Nat.add_sub_cancel]

/-! ## What a value list covers -/

/-- Where a keyword is found there is a blank behind it. -/
theorem exists_of_afterKeyword? {keyword s r : List Char} (h : afterKeyword? keyword s = some r) :
    ∃ c tail, isBlank c = true ∧ s = keyword ++ c :: tail ∧ r = trimStart tail := by
  unfold afterKeyword? at h
  split at h
  next c tail behind =>
    split at h
    next blank =>
      cases h
      exact ⟨c, tail, blank, eq_append_of_after? behind, rfl⟩
    next => cases h
  next => cases h

/-- A value list is its mark and everything up to the next `@`. -/
theorem exists_of_enum? {s : List Char} {found : Found s} (h : enum? s = some found) :
    ∃ c list rest, isBlank c = true ∧ '@' ∉ list ∧ (∀ x ∈ rest.head?, x = '@') ∧
      s = "@enum".toList ++ c :: list ++ rest ∧
      s.take found.width = "@enum".toList ++ c :: list ∧ s.drop found.width = rest := by
  unfold enum? at h
  split at h
  next => cases h
  next r keyword =>
    obtain ⟨c, tail, blank, rfl, rfl⟩ := exists_of_afterKeyword? keyword
    have gap : tail.takeWhile isBlank ++ trimStart tail = tail :=
      List.takeWhile_append_dropWhile
    have list : (trimStart tail).takeWhile (· != '@') ++ (trimStart tail).dropWhile (· != '@') =
        trimStart tail := List.takeWhile_append_dropWhile
    have text : "@enum".toList ++ c :: tail =
        "@enum".toList ++ c :: (tail.takeWhile isBlank ++ (trimStart tail).takeWhile (· != '@')) ++
          (trimStart tail).dropWhile (· != '@') := by
      rw [List.append_assoc, List.cons_append, List.append_assoc, list, gap]
    dsimp only at h
    split at h
    next shorter =>
      have width : found.width = ("@enum".toList ++
          c :: (tail.takeWhile isBlank ++ (trimStart tail).takeWhile (· != '@'))).length := by
        cases h
        change ("@enum".toList ++ c :: tail).length - _ = _
        rw [text, List.length_append, Nat.add_sub_cancel]
      refine ⟨c, tail.takeWhile isBlank ++ (trimStart tail).takeWhile (· != '@'),
        (trimStart tail).dropWhile (· != '@'), blank, ?_, ?_, text, ?_, ?_⟩
      · intro mem
        cases List.mem_append.mp mem with
        | inl mem => exact absurd (List.mem_takeWhile_imp mem) (by decide)
        | inr mem => exact absurd (List.mem_takeWhile_imp mem) (by decide)
      · intro x first
        have stop := List.head?_dropWhile_not (· != '@') (trimStart tail)
        rw [Option.mem_def.mp first] at stop
        simpa using stop
      · rw [width, text, List.take_left]
      · rw [width, text, List.drop_left]
    next => cases h

/-- A mark with a blank behind it begins a value list. -/
theorem isSome_enum? {c : Char} (blank : isBlank c = true) (s : List Char) :
    (enum? ("@enum".toList ++ c :: s)).isSome = true := by
  have keyword := afterKeyword?_append blank "@enum".toList s []
  rw [List.append_nil, List.append_nil] at keyword
  have shorter : ((trimStart s).dropWhile (· != '@')).length <
      ("@enum".toList ++ c :: s).length := by
    have h₁ := length_dropWhile_le (· != '@') (trimStart s)
    have h₂ := length_dropWhile_le isBlank s
    rw [List.length_append, List.length_cons]
    exact Nat.lt_of_le_of_lt (h₁.trans h₂) (by omega)
  rw [enum?, keyword]
  simp only [dif_pos shorter, Option.isSome_some]

theorem not_mem_enum : '@' ∉ "enum".toList := by
  decide

/-- A value list holds no mark behind its own. -/
theorem not_mem_note {c : Char} (blank : isBlank c = true) {list : List Char}
    (noAt : '@' ∉ list) : '@' ∉ "enum".toList ++ c :: list := by
  have other : '@' ≠ c := by
    intro same
    rw [← same] at blank
    exact absurd blank (by decide)
  rw [List.mem_append, List.mem_cons, not_or, not_or]
  exact ⟨not_mem_enum, other, noAt⟩

end RouteDoc.Comment
