import RouteDoc.Proofs.Text.Words
import RouteDoc.Proofs.Comment.Head

/-!
# What becomes of each word of a tag

A record is read in three passes over the same text: one for the examples, one for the values, and
one for the free text, which cuts out the examples first and the value lists from what is left.
Here the text is cut once, into the head, the annotations and the characters outside them, and the
record is compared with that one cut. They agree, so that each character is accounted for exactly
once, as long as no value list begins inside an example and no free text stands behind an example
that ends a value list: with the examples out of sight, such a list runs on over that text.

## Main statements

* `parse_accounts`: in an orderly text, the record is made of the parts of the text.
* `Sample.description_swallowing`: a free text behind such an example is lost.
-/

set_option autoImplicit false

namespace RouteDoc.Override

open Text Comment

/-! ## One cut for the whole text -/

/-- A part of a text. -/
inductive Part where
  /-- The type, the name and what separates them. -/
  | head (text : List Char)
  /-- An example annotation: what it says, and its whole text. -/
  | examples (payload text : List Char)
  /-- A value list: what it says, and its whole text. -/
  | values (payload text : List Char)
  /-- A character outside the head and every annotation. -/
  | free (c : Char)
deriving DecidableEq, Repr

namespace Part

/-- The characters of a part. -/
def text : Part → List Char
  | head text => text
  | examples _ text => text
  | values _ text => text
  | free c => [c]

/-- What an example annotation says. -/
def example? : Part → Option (List Char)
  | examples payload _ => some payload
  | _ => none

/-- What a value list says. -/
def values? : Part → Option (List Char)
  | values payload _ => some payload
  | _ => none

/-- The part as the reader of those annotations sees it. -/
def seenBy (note? : Part → Option (List Char)) (p : Part) : List Piece :=
  match note? p with
  | some payload => [.note payload p.text]
  | none => p.text.map .plain

/-- A character outside the head and the annotations, or a space in the place of the part. -/
def shown : Part → Char
  | free c => c
  | _ => ' '

/-- The part in the text that is left when the examples are cut out. -/
def left : Part → List Char
  | examples _ _ => [' ']
  | p => p.text

end Part

/-- Cuts a text into annotations of both kinds and the characters outside them. -/
def cut (s : List Char) : List Part :=
  match s with
  | [] => []
  | c :: cs =>
    match example? (c :: cs) with
    | some found =>
      .examples found.payload ((c :: cs).take found.width) :: cut ((c :: cs).drop found.width)
    | none =>
      match enum? (c :: cs) with
      | some found =>
        .values found.payload ((c :: cs).take found.width) :: cut ((c :: cs).drop found.width)
      | none => .free c :: cut cs
termination_by s.length
decreasing_by
  · have := found.width_pos
    simp only [List.length_drop, List.length_cons]
    omega
  · have := found.width_pos
    simp only [List.length_drop, List.length_cons]
    omega
  · simp

/-- The parts of a text: the head, when there is one, and the cut of what follows it. -/
def account (text : List Char) : List Part :=
  match head? text with
  | some h => .head (text.take (text.length - h.rest.length)) :: cut h.rest
  | none => cut text

/-- Whether no value list begins in `s`, where `behind` follows. -/
def listless (behind : List Char) : List Char → Bool
  | [] => true
  | c :: s => (enum? (c :: s ++ behind)).isNone && listless behind s

/-- Whether no value list begins inside an example, and none runs on over free text when the
examples are cut out; `listing` tells whether one is running. -/
def orderly (listing : Bool) : List Part → Bool
  | [] => true
  | .head _ :: ps => orderly listing ps
  | .examples _ text :: ps => listless (ps.flatMap Part.text) text && orderly listing ps
  | .values _ _ :: ps => orderly true ps
  | .free c :: ps =>
    if c == '@' then (enum? (c :: ps.flatMap Part.left)).isNone && orderly false ps
    else (!listing || isBlank c) && orderly listing ps

/-- The free words of a text, joined; none when there are none. -/
def freeText (s : List Char) : Option String :=
  if (freeWords s).isEmpty then none else some (String.ofList ([' '].intercalate (freeWords s)))

/-- The parts that the head of a record makes. -/
def headParts (r : Override) (gap : List Char) : List Part :=
  match r.typeName, r.name with
  | some typeName, some name => [.head (typeName.toList ++ gap ++ name.toList)]
  | _, _ => []

/-- **The record is made of the parts of the text**, each of them used once. -/
structure Accounts (text : List Char) (r : Override) (parts : List Part) : Prop where
  /-- The parts are the text. -/
  whole : parts.flatMap Part.text = text
  /-- The first part holds the type and the name, when there are any. -/
  head : ∃ gap behind, parts = headParts r gap ++ behind ∧ (∀ c ∈ gap, isBlank c = true) ∧
    ∀ t, .head t ∉ behind
  /-- The reader of examples finds the example parts, in their places, and no others. -/
  exampleSpans : parts.flatMap (Part.seenBy Part.example?) = pieces Comment.example? text
  /-- The reader of value lists finds the value parts, in their places, and no others. -/
  enumSpans : parts.flatMap (Part.seenBy Part.values?) = pieces enum? text
  /-- The examples are those of the example parts. -/
  examples : r.examples = ((parts.filterMap Part.example?).flatMap examplesOf).map String.ofList
  /-- The values are those of the value parts. -/
  enumValues : r.enumValues = ((parts.filterMap Part.values?).flatMap commaList).map String.ofList
  /-- The description is made of the free words of what is left. -/
  description : r.description = freeText (parts.map Part.shown)

/-! ## Value lists, character by character -/

/-- Where no value list begins, every character is a piece by itself. -/
theorem pieces_of_listless {s behind : List Char} (none : listless behind s = true) :
    pieces enum? (s ++ behind) = s.map .plain ++ pieces enum? behind := by
  induction s with
  | nil => rfl
  | cons c s ih =>
    obtain ⟨first, rest⟩ := Bool.and_eq_true_iff.mp none
    have here : enum? (c :: (s ++ behind)) = Option.none := Option.isNone_iff_eq_none.mp first
    rw [List.cons_append, pieces_cons_of_none here, ih rest]
    rfl

/-- The text with a space in the place of each character of a value list; `listing` tells whether
one is running. -/
def veil (listing : Bool) : List Char → List Char
  | [] => []
  | c :: s =>
    let listing := if c == '@' then (enum? (c :: s)).isSome else listing
    (if listing then ' ' else c) :: veil listing s

/-- An annotation ends the list that is running, and is veiled if it begins another one. -/
theorem veil_at (listing : Bool) (s : List Char) :
    veil listing ('@' :: s) =
      (if (enum? ('@' :: s)).isSome then ' ' else '@') :: veil (enum? ('@' :: s)).isSome s := rfl

/-- Any other character is veiled if a list is running. -/
theorem veil_cons {c : Char} (other : c ≠ '@') (listing : Bool) (s : List Char) :
    veil listing (c :: s) = (if listing then ' ' else c) :: veil listing s := by
  have plain : (c == '@') = false := beq_eq_false_iff_ne.mpr other
  simp only [veil, plain, Bool.false_eq_true, if_false]

/-- A running list goes on where there is no `@`. -/
theorem veil_append {s : List Char} (noAt : '@' ∉ s) (rest : List Char) :
    veil true (s ++ rest) = s.map (fun _ => ' ') ++ veil true rest := by
  induction s with
  | nil => rfl
  | cons c s ih =>
    rw [List.mem_cons, not_or] at noAt
    rw [List.cons_append, veil_cons (Ne.symm noAt.1), ih noAt.2]
    rfl

/-- At an `@`, it does not matter whether a list was running. -/
theorem veil_of_stop {rest : List Char} (stop : ∀ c ∈ rest.head?, c = '@') (a b : Bool) :
    veil a rest = veil b rest := by
  cases rest with
  | nil => rfl
  | cons c rest =>
    rw [stop c rfl]
    rfl

/-- A value list is veiled as a whole, and runs on behind itself. -/
theorem veil_enum {c : Char} (blank : isBlank c = true) {list : List Char} (noAt : '@' ∉ list)
    (listing : Bool) (rest : List Char) :
    ∃ spaces : List Char, (∀ x ∈ spaces, isBlank x = true) ∧
      veil listing ("@enum".toList ++ c :: list ++ rest) = ' ' :: (spaces ++ veil true rest) := by
  have begins : (enum? ('@' :: ("enum".toList ++ c :: list ++ rest))).isSome = true := by
    rw [List.append_assoc]
    exact isSome_enum? blank (list ++ rest)
  refine ⟨("enum".toList ++ c :: list).map fun _ => ' ', ?_, ?_⟩
  · intro x mem
    obtain ⟨-, -, rfl⟩ := List.mem_map.mp mem
    exact isBlank_space
  · change veil listing ('@' :: ("enum".toList ++ c :: list ++ rest)) = _
    rw [veil_at, begins, veil_append (not_mem_note blank noAt)]
    rfl

/-- **Cutting the value lists out leaves the words that veiling them leaves.** -/
theorem sameWords_erase_enum? (s : List Char) : SameWords (veil false s) (erase enum? s) := by
  induction s using pieces.induct enum? with
  | case1 =>
    rw [erase_nil]
    exact fun front => rfl
  | case2 c cs none ih =>
    have erased : erase enum? (c :: cs) = c :: erase enum? cs := by
      rw [erase, pieces_cons_of_none none]
      rfl
    have veiled : veil false (c :: cs) = c :: veil false cs := by
      by_cases mark : c = '@'
      · rw [mark] at none ⊢
        rw [veil_at, none]
        rfl
      · exact veil_cons mark false cs
    rw [erased, veiled]
    exact ih.cons c
  | case3 c cs found recognised ih =>
    obtain ⟨b, list, rest, blank, noAt, stop, text, -, behind⟩ := exists_of_enum? recognised
    have erased : erase enum? (c :: cs) = ' ' :: erase enum? rest := by
      rw [erase, pieces_cons_of_some recognised, behind]
      rfl
    obtain ⟨spaces, blanks, veiled⟩ := veil_enum blank noAt false rest
    rw [behind] at ih
    rw [erased, text, veiled, veil_of_stop stop true false]
    exact ih.cons_blank isBlank_space isBlank_space blanks

/-! ## The one cut and the readers -/

/-- The parts of a text make up the text. -/
theorem cut_whole (s : List Char) : (cut s).flatMap Part.text = s := by
  fun_induction cut s with
  | case1 => rfl
  | case2 c cs found h ih =>
    rw [List.flatMap_cons, ih]
    exact List.take_append_drop ..
  | case3 c cs h found h' ih =>
    rw [List.flatMap_cons, ih]
    exact List.take_append_drop ..
  | case4 c cs h h' ih =>
    rw [List.flatMap_cons, ih]
    rfl

/-- The reader of examples finds the example parts. -/
theorem cut_seenBy_example? (s : List Char) :
    (cut s).flatMap (Part.seenBy Part.example?) = pieces Comment.example? s := by
  fun_induction cut s with
  | case1 => rw [pieces]; rfl
  | case2 c cs found recognised ih =>
    rw [List.flatMap_cons, ih, pieces_cons_of_some recognised]
    rfl
  | case3 c cs none found recognised ih =>
    obtain ⟨b, list, rest, blank, noAt, -, text, note, behind⟩ := exists_of_enum? recognised
    have skips : Recogniser.Skips Comment.example? ("@enum".toList ++ b :: list) :=
      marked_example?.skips_cons (fun _ => rfl) (not_mem_note blank noAt)
    have read : pieces Comment.example? (c :: cs) = _ := (congrArg _ text).trans (skips rest)
    rw [behind] at ih
    rw [List.flatMap_cons, note, behind, ih, read]
    rfl
  | case4 c cs none none' ih =>
    rw [List.flatMap_cons, ih, pieces_cons_of_none none]
    rfl

/-- With the example parts cut out, the text is what the reader of examples leaves. -/
theorem cut_left (s : List Char) :
    (cut s).flatMap Part.left = erase Comment.example? s := by
  rw [erase, ← cut_seenBy_example?, List.map_flatMap]
  refine congrArg (List.flatMap · (cut s)) (funext fun p => ?_)
  cases p with
  | examples payload text => rfl
  | head text =>
    change text = (text.map Piece.plain).map _
    rw [List.map_map]
    exact (List.map_id text).symm
  | values payload text =>
    change text = (text.map Piece.plain).map _
    rw [List.map_map]
    exact (List.map_id text).symm
  | free c => rfl

/-- The reader of value lists finds the value parts, where none begins inside an example. -/
theorem cut_seenBy_values? {s : List Char} {listing : Bool} (h : orderly listing (cut s) = true) :
    (cut s).flatMap (Part.seenBy Part.values?) = pieces enum? s := by
  fun_induction cut s generalizing listing with
  | case1 => rw [pieces]; rfl
  | case2 c cs found recognised ih =>
    obtain ⟨apart, behind⟩ := Bool.and_eq_true_iff.mp h
    have text := pieces_of_listless apart
    rw [cut_whole, List.take_append_drop] at text
    rw [List.flatMap_cons, ih behind, text]
    rfl
  | case3 c cs none found recognised ih =>
    rw [List.flatMap_cons, ih h, pieces_cons_of_some recognised]
    rfl
  | case4 c cs none none' ih =>
    obtain ⟨l, behind⟩ : ∃ l, orderly l (cut cs) = true := by
      unfold orderly at h
      split at h
      next => exact ⟨_, (Bool.and_eq_true_iff.mp h).2⟩
      next => exact ⟨_, (Bool.and_eq_true_iff.mp h).2⟩
    rw [List.flatMap_cons, ih behind, pieces_cons_of_none none']
    rfl

/-- **The free words of an orderly text are what the three passes leave.** The induction runs along
the cut; `listing` tells whether a value list is running in the text without its examples. -/
theorem sameWords_shown {s : List Char} {listing : Bool} (h : orderly listing (cut s) = true) :
    SameWords (veil listing ((cut s).flatMap Part.left)) ((cut s).map Part.shown) := by
  fun_induction cut s generalizing listing with
  | case1 => exact fun front => rfl
  | case2 c cs found recognised ih =>
    obtain ⟨-, behind⟩ := Bool.and_eq_true_iff.mp h
    rw [List.flatMap_cons, List.map_cons]
    change SameWords (veil listing (' ' :: (cut _).flatMap Part.left)) (' ' :: _)
    rw [veil_cons (by decide), ite_self]
    exact (ih behind).cons ' '
  | case3 c cs none found recognised ih =>
    obtain ⟨b, list, rest, blank, noAt, -, text, note, behind⟩ := exists_of_enum? recognised
    obtain ⟨spaces, blanks, veiled⟩ :=
      veil_enum blank noAt listing ((cut rest).flatMap Part.left)
    rw [behind] at ih h ⊢
    rw [List.flatMap_cons, List.map_cons, note]
    change SameWords (veil listing ("@enum".toList ++ b :: list ++ _)) (' ' :: _)
    rw [veiled]
    exact (ih h).cons_blank isBlank_space isBlank_space blanks
  | case4 c cs none none' ih =>
    rw [List.flatMap_cons, List.map_cons]
    change SameWords (veil listing (c :: (cut cs).flatMap Part.left))
      (c :: (cut cs).map Part.shown)
    unfold orderly at h
    split at h
    next mark =>
      -- A free mark begins no list in the text without its examples, and ends the running one.
      rw [beq_iff_eq.mp mark] at h ⊢
      obtain ⟨closed, behind⟩ := Bool.and_eq_true_iff.mp h
      rw [veil_at, Option.isNone_iff_eq_none.mp closed]
      exact (ih behind).cons '@'
    next mark =>
      have other : c ≠ '@' := by simpa using mark
      obtain ⟨blank, behind⟩ := Bool.and_eq_true_iff.mp h
      rw [veil_cons other]
      cases listing with
      | false => exact (ih behind).cons c
      | true =>
        -- The running list takes this character, which is a blank.
        have isBlank : isBlank c = true := by simpa using blank
        exact (ih behind).cons_blank isBlank_space isBlank (List.forall_mem_nil _)

/-! ## The record -/

/-- What the annotations say is what the parts say that are seen as annotations. -/
theorem payloads_of_seenBy {note? : Part → Option (List Char)} {r : Recogniser}
    {parts : List Part} {text : List Char} (h : parts.flatMap (Part.seenBy note?) = pieces r text) :
    payloads r text = parts.filterMap note? := by
  rw [payloads, ← h]
  clear h
  induction parts with
  | nil => rfl
  | cons p parts ih =>
    rw [List.flatMap_cons, List.filterMap_append, ih]
    cases said : note? p with
    | none => simp [Part.seenBy, said]
    | some payload => simp [Part.seenBy, said]

/-- The free text depends on the words of a text alone. -/
theorem freeText_congr {s t : List Char} (h : words s = words t) : freeText s = freeText t := by
  rw [freeText, freeText, freeWords, freeWords, h]

/-- The free text of an orderly cut. -/
theorem describe_of_orderly {s : List Char} (h : orderly false (cut s) = true) :
    describe s = freeText ((cut s).map Part.shown) := by
  have veiled := (sameWords_erase_enum? (erase Comment.example? s)).words_eq
  have shown := (sameWords_shown h).words_eq
  rw [cut_left] at shown
  exact freeText_congr (veiled.symm.trans shown)

/-- The head is no part that cutting gives: it is taken off before. -/
theorem not_head_mem_cut (s t : List Char) : .head t ∉ cut s := by
  fun_induction cut s with
  | case1 => exact List.not_mem_nil
  | case2 c cs found recognised ih => simp [ih]
  | case3 c cs none found recognised ih => simp [ih]
  | case4 c cs none none' ih => simp [ih]

/-- A text without a head. -/
theorem accounts_of_headless {value : String} (headless : head? (collapse value.toList) = none)
    (h : orderly false (cut (collapse value.toList)) = true) :
    Accounts (collapse value.toList) (parse value) (cut (collapse value.toList)) where
  whole := cut_whole _
  head := by
    refine ⟨[], cut (collapse value.toList), ?_, fun _ mem => absurd mem List.not_mem_nil,
      not_head_mem_cut _⟩
    rw [parse, headless]
    rfl
  exampleSpans := cut_seenBy_example? _
  enumSpans := cut_seenBy_values? h
  examples := by
    rw [parse, payloads_of_seenBy (cut_seenBy_example? _)]
  enumValues := by
    rw [parse, payloads_of_seenBy (cut_seenBy_values? h)]
  description := by
    rw [parse, headless]
    exact describe_of_orderly h

/-- The head is the first part, and no annotation begins in it. -/
theorem exists_account_of_head? {text : List Char} {h : Head} (read : head? text = some h) :
    ∃ gap, text = h.typeName ++ gap ++ h.name ++ h.rest ∧ (∀ c ∈ gap, isBlank c = true) ∧
      '@' ∉ h.typeName ++ gap ++ h.name ∧
      account text = .head (h.typeName ++ gap ++ h.name) :: cut h.rest := by
  obtain ⟨gap, split, blanks, noAt⟩ := exists_of_head? read
  refine ⟨gap, split, blanks, noAt, ?_⟩
  have front : text.take (text.length - h.rest.length) = h.typeName ++ gap ++ h.name := by
    have length : text.length - h.rest.length = (h.typeName ++ gap ++ h.name).length := by
      rw [split, List.length_append, Nat.add_sub_cancel]
    rw [length, split, List.take_left]
  rw [account, read]
  exact congrArg (Part.head · :: cut h.rest) front

/-- A text with a head: the readers of annotations skip it. -/
theorem accounts_of_head {value : String} {h : Head} (read : head? (collapse value.toList) = some h)
    (ordered : orderly false (cut h.rest) = true) :
    Accounts (collapse value.toList) (parse value) (account (collapse value.toList)) := by
  obtain ⟨gap, text, blanks, noAt, parts⟩ := exists_account_of_head? read
  have examples : (account (collapse value.toList)).flatMap (Part.seenBy Part.example?) =
      pieces Comment.example? (collapse value.toList) := by
    rw [parts, List.flatMap_cons, cut_seenBy_example?, text, marked_example?.skips noAt]
    rfl
  have values : (account (collapse value.toList)).flatMap (Part.seenBy Part.values?) =
      pieces enum? (collapse value.toList) := by
    rw [parts, List.flatMap_cons, cut_seenBy_values? ordered, text, marked_enum?.skips noAt]
    rfl
  refine ⟨?_, ⟨gap, cut h.rest, ?_, blanks, not_head_mem_cut _⟩, examples, values, ?_, ?_, ?_⟩
  · rw [parts, List.flatMap_cons, cut_whole, text]
    rfl
  · rw [parts, parse, read]
    simp [headParts]
  · rw [parse, payloads_of_seenBy examples]
  · rw [parse, payloads_of_seenBy values]
  · have same : words (' ' :: (cut h.rest).map Part.shown) = words ((cut h.rest).map Part.shown) :=
      words_cons_blank isBlank_space _
    have free : describe h.rest = _ := describe_of_orderly ordered
    rw [parse, read, parts]
    exact free.trans (freeText_congr same.symm)

/-- **In an orderly text, each character is accounted for exactly once.** -/
theorem parse_accounts {value : String}
    (h : orderly false (account (collapse value.toList)) = true) :
    Accounts (collapse value.toList) (parse value) (account (collapse value.toList)) := by
  cases read : head? (collapse value.toList) with
  | none =>
    have cut' : account (collapse value.toList) = cut (collapse value.toList) := by
      rw [account, read]
    rw [cut'] at h ⊢
    exact accounts_of_headless read h
  | some head =>
    obtain ⟨gap, -, -, -, parts⟩ := exists_account_of_head? read
    rw [parts] at h
    exact accounts_of_head read h

namespace Sample

/-- A tag with free text between its annotations. -/
def ordered : String :=
  "string status @example draft of a post @enum draft, published @example 'in review'"

/-- Its text is orderly, and the record is made of it. -/
theorem parse_accounts_ordered :
    orderly false (account (collapse ordered.toList)) = true ∧
      Accounts (collapse ordered.toList) (parse ordered) (account (collapse ordered.toList)) :=
  ⟨by decide +kernel, parse_accounts (by decide +kernel)⟩

/-- A tag with free text behind an example that ends a value list. -/
def swallowing : String :=
  "string status @enum draft, published @example draft shown to admins"

/-- The three passes do not agree on it: the readers of annotations leave its last words to the
description, and the record has none. -/
theorem description_swallowing :
    (account (collapse swallowing.toList)).flatMap Part.text = collapse swallowing.toList ∧
      (account (collapse swallowing.toList)).flatMap (Part.seenBy Part.example?) =
        pieces Comment.example? (collapse swallowing.toList) ∧
      (account (collapse swallowing.toList)).flatMap (Part.seenBy Part.values?) =
        pieces enum? (collapse swallowing.toList) ∧
      freeText ((account (collapse swallowing.toList)).map Part.shown) =
        some "shown to admins" ∧
      (parse swallowing).description = none := by
  decide +kernel

end Sample

end RouteDoc.Override
