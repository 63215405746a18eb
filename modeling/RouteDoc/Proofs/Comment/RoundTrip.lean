import RouteDoc.Proofs.Text.Words
import RouteDoc.Proofs.Comment.Head

/-!
# Writing a record back

A record has one customary way to be written in a tag: the type, the name, the free text, one
`@example` with a quoted value for each example, and one `@enum` with all the values, with single
spaces between them. Reading undoes writing, for the records whose parts can be told apart in the
text.

## Main statements

* `parse_render`: reading what was written gives the record back.
-/

set_option autoImplicit false

namespace RouteDoc

open Text Comment

namespace Override

/-! ## Writing -/

/-- The list of the values, when there are any. -/
def enumNotes (values : List (List Char)) : List (List Char) :=
  if values.isEmpty then [] else [enumNote ([',', ' '].intercalate values)]

/-- The parts of a record behind its name. -/
def partsBehind (r : Override) : List (List Char) :=
  r.description.toList.map String.toList ++ (r.examples.map (exampleNote ·.toList) ++
    enumNotes (r.enumValues.map String.toList))

/-- The parts of a record: the type, the name, the free text and the annotations. -/
def parts (r : Override) : List (List Char) :=
  (r.typeName.toList ++ r.name.toList).map String.toList ++ r.partsBehind

/-- The text that a record is written as. -/
def render (r : Override) : String :=
  String.ofList ([' '].intercalate r.parts)

/-! ## The records that can be written -/

/-- A free text: words without `@`, none of them made of dashes alone, with single spaces between.
-/
def IsFreeText (s : List Char) : Prop :=
  ∃ ws : List (List Char), ws ≠ [] ∧ s = [' '].intercalate ws ∧
    ∀ w ∈ ws, IsWordText w ∧ '@' ∉ w ∧ w.all (· == '-') = false

/-- A text that can stand between double quotes. -/
structure IsQuotable (s : List Char) : Prop extends Spaced s where
  /-- It does not close the quotes. -/
  noQuote : '"' ∉ s
  /-- No annotation begins in it. -/
  noAt : '@' ∉ s

instance (s : List Char) : Decidable (IsQuotable s) :=
  decidable_of_iff (Spaced s ∧ '"' ∉ s ∧ '@' ∉ s)
    ⟨fun h => ⟨h.1, h.2.1, h.2.2⟩, fun h => ⟨h.toSpaced, h.noQuote, h.noAt⟩⟩

/-- A value that can stand in a list. -/
structure IsItem (s : List Char) : Prop extends Tight s where
  /-- It is not empty. -/
  ne_nil : s ≠ []
  /-- It is one item. -/
  noComma : ',' ∉ s
  /-- No annotation begins in it. -/
  noAt : '@' ∉ s

instance (s : List Char) : Decidable (IsItem s) :=
  decidable_of_iff (Tight s ∧ s ≠ [] ∧ ',' ∉ s ∧ '@' ∉ s)
    ⟨fun h => ⟨h.1, h.2.1, h.2.2.1, h.2.2.2⟩, fun h => ⟨h.toTight, h.ne_nil, h.noComma, h.noAt⟩⟩

/-- A record that can be written: it has a type and a name, and each part can be told apart. -/
structure Canonical (r : Override) : Prop where
  /-- There is a type. -/
  typeName : ∃ s, r.typeName = some s ∧ IsTypeName s.toList
  /-- There is a name. -/
  name : ∃ s, r.name = some s ∧ IsName s.toList
  /-- A description is a free text. -/
  description : ∀ s ∈ r.description, IsFreeText s.toList
  /-- The examples can be quoted. -/
  examples : ∀ e ∈ r.examples, IsQuotable e.toList
  /-- The values can be listed. -/
  enumValues : ∀ v ∈ r.enumValues, IsItem v.toList

/-! ## The written text is tight -/

theorem IsTypeName.tight {s : List Char} (h : IsTypeName s) : Tight s ∧ s ≠ [] :=
  ⟨tight_of_ink h.isWordText.ink, h.isWordText.ne_nil⟩

theorem IsName.tight {s : List Char} (h : IsName s) : Tight s ∧ s ≠ [] :=
  ⟨tight_of_ink h.isWordText.ink, h.isWordText.ne_nil⟩

/-- Words with single spaces between them may stand between spaces. -/
theorem IsFreeText.tight {s : List Char} (h : IsFreeText s) : Tight s ∧ s ≠ [] := by
  obtain ⟨ws, filled, rfl, each⟩ := h
  have joined := tight_join fun w mem => ⟨tight_of_ink (each w mem).1.ink, (each w mem).1.ne_nil⟩
  exact ⟨joined.1, joined.2 filled⟩

/-- The quotes of an example keep its blanks apart from the spaces around it. -/
theorem IsQuotable.tight_exampleNote {s : List Char} (h : IsQuotable s) :
    Tight (exampleNote s) ∧ exampleNote s ≠ [] := by
  have keyword : Tight "@example".toList := by decide +kernel
  have quoted : Tight ('"' :: s ++ ['"']) := h.toSpaced.tight_between (by decide) (by decide)
  exact ⟨keyword.append_space quoted (by decide) (by simp),
    exampleNote_ne_nil s⟩

/-- A value list begins with its keyword and ends with a value. -/
theorem tight_enumNote {values : List (List Char)} (items : ∀ v ∈ values, IsItem v)
    (filled : values ≠ []) :
    Tight (enumNote ([',', ' '].intercalate values)) ∧
      enumNote ([',', ' '].intercalate values) ≠ [] := by
  have keyword : Tight "@enum".toList := by decide +kernel
  obtain ⟨list, ne⟩ := tight_commaJoin fun v mem => ⟨(items v mem).toTight, (items v mem).ne_nil⟩
  exact ⟨keyword.append_space list (by decide) (ne filled), enumNote_ne_nil _⟩

/-- All that stands behind the name may stand between spaces. -/
theorem Canonical.tight_partsBehind {r : Override} (h : r.Canonical) :
    ∀ s ∈ r.partsBehind, Tight s ∧ s ≠ [] := by
  intro s mem
  simp only [partsBehind, List.mem_append, List.mem_map, Option.mem_toList] at mem
  obtain ⟨d, mem, rfl⟩ | ⟨e, mem, rfl⟩ | mem := mem
  · exact (h.description d mem).tight
  · exact (h.examples e mem).tight_exampleNote
  · rw [enumNotes] at mem
    split at mem
    next => cases mem
    next filled =>
      rw [List.mem_singleton.mp mem]
      refine tight_enumNote (List.forall_mem_map.mpr h.enumValues) ?_
      simpa using filled

/-! ## Reading the annotations -/

/-- Texts, each with a space in front. -/
def trail (ss : List (List Char)) : List Char :=
  ss.flatMap (' ' :: ·)

/-- To join texts is to put a space in front of all but the first. -/
theorem join_cons (s : List Char) (ss : List (List Char)) :
    [' '].intercalate (s :: ss) = s ++ trail ss := by
  induction ss generalizing s with
  | nil => simp [trail]
  | cons t ss ih => rw [List.intercalate_cons_cons, ih t]; simp [trail]

theorem trail_cons (s : List Char) (ss : List (List Char)) :
    trail (s :: ss) = ' ' :: s ++ trail ss := rfl

theorem trail_append (ss ts : List (List Char)) : trail (ss ++ ts) = trail ss ++ trail ts :=
  List.flatMap_append

/-- A reader skips texts with spaces in front when it skips each of them. -/
theorem skips_trail {r : Recogniser} (marked : r.Marked) {ss : List (List Char)}
    (each : ∀ s ∈ ss, r.Skips s) : r.Skips (trail ss) := by
  induction ss with
  | nil => exact marked.skips List.not_mem_nil
  | cons s ss ih =>
    obtain ⟨first, behind⟩ := List.forall_mem_cons.mp each
    have space : r.Skips [' '] := marked.skips (by decide)
    exact (space.append first).append (ih behind)

/-- No annotation begins in a free text. -/
theorem IsFreeText.noAt {s : List Char} (h : IsFreeText s) : '@' ∉ s := by
  obtain ⟨ws, -, rfl, each⟩ := h
  intro mem
  obtain mem | ⟨w, inWords, mem⟩ := mem_of_mem_intercalate mem
  · exact absurd mem (by decide)
  · exact (each w inWords).2.1 mem

/-- The reader of value lists skips an example. -/
theorem IsQuotable.skips_exampleNote {s : List Char} (h : IsQuotable s) :
    Recogniser.Skips enum? (exampleNote s) := by
  have noAt : '@' ∉ "example".toList ++ ' ' :: ('"' :: s ++ ['"']) := by
    simp [h.noAt]
  exact marked_enum?.skips_cons (fun _ => rfl) noAt

/-- No annotation begins in a value list. -/
theorem not_mem_commaJoin {values : List (List Char)} (items : ∀ v ∈ values, IsItem v) :
    '@' ∉ [',', ' '].intercalate values := by
  intro mem
  obtain mem | ⟨v, inValues, mem⟩ := mem_of_mem_intercalate mem
  · exact absurd mem (by decide)
  · exact (items v inValues).noAt mem

/-- The reader of examples skips a value list. -/
theorem skips_enumNote {values : List (List Char)} (items : ∀ v ∈ values, IsItem v) :
    Recogniser.Skips example? (enumNote ([',', ' '].intercalate values)) := by
  have noAt : '@' ∉ "enum".toList ++ ' ' :: [',', ' '].intercalate values := by
    simp [not_mem_commaJoin items]
  exact marked_example?.skips_cons (fun _ => rfl) noAt

/-- The examples that were written are read, and spaces take their place. -/
theorem examples_of_written {values : List (List Char)} (quotable : ∀ v ∈ values, IsQuotable v)
    (rest : List Char) :
    payloads example? (trail (values.map exampleNote) ++ rest) =
        values.map (fun v => '"' :: v ++ ['"']) ++ payloads example? rest ∧
      erase example? (trail (values.map exampleNote) ++ rest) =
        values.flatMap (fun _ => [' ', ' ']) ++ erase example? rest := by
  induction values with
  | nil => exact ⟨rfl, rfl⟩
  | cons v values ih =>
    obtain ⟨first, behind⟩ := List.forall_mem_cons.mp quotable
    obtain ⟨said, left⟩ := ih behind
    have space : Recogniser.Skips example? [' '] := marked_example?.skips (by decide)
    have note := reads_exampleNote first.noQuote (trail (values.map exampleNote) ++ rest)
    have text : trail ((v :: values).map exampleNote) ++ rest =
        [' '] ++ (exampleNote v ++ (trail (values.map exampleNote) ++ rest)) := by
      simp [trail]
    constructor
    · rw [text, space.payloads_append, note.payloads_append, said, List.map_cons,
        List.cons_append, List.cons_append]
    · rw [text, space.erase_append, note.erase_append, left]
      simp

/-- The values that were written are read, and nothing but blanks takes their place. -/
theorem enumValues_of_written {values : List (List Char)} (items : ∀ v ∈ values, IsItem v) :
    (payloads enum? (trail (enumNotes values))).flatMap commaList = values ∧
      ∀ c ∈ erase enum? (trail (enumNotes values)), isBlank c = true := by
  rw [enumNotes]
  split
  next none =>
    rw [List.isEmpty_iff.mp none]
    simp [trail]
  next filled =>
    have each : ∀ v ∈ values, Tight v ∧ v ≠ [] := by
      intro v mem
      exact ⟨(items v mem).toTight, (items v mem).ne_nil⟩
    obtain ⟨tight, ne⟩ := tight_commaJoin each
    have note : Recogniser.Reads enum? ([',', ' '].intercalate values)
        (enumNote ([',', ' '].intercalate values)) [] :=
      reads_enumNote tight.head (not_mem_commaJoin items) (by simp) (ne (by simpa using filled))
    have space : Recogniser.Skips enum? [' '] := marked_enum?.skips (by decide)
    have text : trail [enumNote ([',', ' '].intercalate values)] =
        [' '] ++ (enumNote ([',', ' '].intercalate values) ++ []) := by
      simp [trail]
    constructor
    · rw [text, space.payloads_append, note.payloads_append, payloads_nil, List.flatMap_singleton,
        commaList_join each fun v mem => (items v mem).noComma]
    · rw [text, space.erase_append, note.erase_append, erase_nil]
      simp [isBlank_space]

/-- The text between the quotes is the one example of a quoted value. -/
theorem examplesOf_quoted (value : List Char) : examplesOf ('"' :: value ++ ['"']) = [value] := by
  have text : unquoteWith? '"' ('"' :: value ++ ['"']) = some value := by
    have start : after? ['"'] ('"' :: value ++ ['"']) = some (value ++ ['"']) := rfl
    rw [unquoteWith?, start, Option.bind_some, before?_append]
  rw [examplesOf, text, Option.some_or]

/-- A free text is read back, also with blanks behind it. -/
theorem freeWords_of_isFreeText {s blank : List Char} (h : IsFreeText s)
    (blanks : ∀ c ∈ blank, isBlank c = true) :
    (freeWords (' ' :: s ++ blank)).isEmpty = false ∧
      [' '].intercalate (freeWords (' ' :: s ++ blank)) = s := by
  obtain ⟨ws, filled, rfl, each⟩ := h
  have words : words (' ' :: [' '].intercalate ws ++ blank) = ws := by
    rw [words_append_blanks _ blanks, words_cons_blank isBlank_space,
      words_join fun w mem => (each w mem).1]
  have free : freeWords (' ' :: [' '].intercalate ws ++ blank) = ws := by
    rw [freeWords, words]
    refine List.filter_eq_self.mpr fun w mem => ?_
    rw [(each w mem).2.2]
    rfl
  rw [free]
  exact ⟨List.isEmpty_eq_false_iff.mpr filled, rfl⟩

/-! ## Reading undoes writing -/

/-- The head of a written record is its type and its name. -/
theorem Canonical.head?_render {r : Override} (h : r.Canonical) :
    ∃ T N, r.typeName = some T ∧ r.name = some N ∧
      head? (collapse r.render.toList) = some ⟨T.toList, N.toList, trail r.partsBehind⟩ := by
  obtain ⟨T, hT, typed⟩ := h.typeName
  obtain ⟨N, hN, named⟩ := h.name
  have parts : r.parts = T.toList :: N.toList :: r.partsBehind := by
    rw [Override.parts, hT, hN]
    rfl
  have tight : ∀ s ∈ r.parts, Tight s ∧ s ≠ [] := by
    rw [parts]
    exact List.forall_mem_cons.mpr ⟨typed.tight,
      List.forall_mem_cons.mpr ⟨named.tight, h.tight_partsBehind⟩⟩
  have text : collapse r.render.toList =
      T.toList ++ ' ' :: (N.toList ++ trail r.partsBehind) := by
    rw [render, String.toList_ofList, (tight_join tight).1.collapse_eq, parts, join_cons,
      trail_cons, List.cons_append]
  have stop : ∀ c ∈ (trail r.partsBehind).head?, c = ' ' := by
    intro c first
    cases behind : r.partsBehind with
    | nil => rw [behind] at first; cases first
    | cons s ss => rw [behind] at first; cases first; rfl
  refine ⟨T, N, hT, hN, ?_⟩
  rw [text]
  exact head?_append typed named stop

/-- Behind the name come the free text, the examples and the value list, in this order. -/
theorem trail_partsBehind (r : Override) :
    trail r.partsBehind = trail (r.description.toList.map String.toList) ++
      (trail ((r.examples.map String.toList).map exampleNote) ++
        trail (enumNotes (r.enumValues.map String.toList))) := by
  rw [partsBehind, trail_append, trail_append, List.map_map]
  rfl

theorem Canonical.quotable {r : Override} (h : r.Canonical) :
    ∀ v ∈ r.examples.map String.toList, IsQuotable v :=
  List.forall_mem_map.mpr h.examples

theorem Canonical.items {r : Override} (h : r.Canonical) :
    ∀ v ∈ r.enumValues.map String.toList, IsItem v :=
  List.forall_mem_map.mpr h.enumValues

/-- No annotation begins in the free text. -/
theorem Canonical.skips_description {r : Override} (h : r.Canonical) {reader : Recogniser}
    (marked : reader.Marked) :
    reader.Skips (trail (r.description.toList.map String.toList)) := by
  refine skips_trail marked (List.forall_mem_map.mpr fun d mem => marked.skips ?_)
  exact (h.description d (Option.mem_toList.mp mem)).noAt

/-- The reader of value lists finds none in the examples. -/
theorem Canonical.skips_examples {r : Override} (h : r.Canonical) :
    Recogniser.Skips enum? (trail ((r.examples.map String.toList).map exampleNote)) := by
  refine skips_trail marked_enum? (List.forall_mem_map.mpr (List.forall_mem_map.mpr ?_))
  exact fun e mem => (h.examples e mem).skips_exampleNote

/-- The reader of examples finds none in the value list. -/
theorem Canonical.skips_enumValues {r : Override} (h : r.Canonical) :
    Recogniser.Skips example? (trail (enumNotes (r.enumValues.map String.toList))) := by
  refine skips_trail marked_example? fun s mem => ?_
  rw [enumNotes] at mem
  split at mem
  next => cases mem
  next =>
    rw [List.mem_singleton.mp mem]
    exact skips_enumNote h.items

/-- The examples are read back. -/
theorem Canonical.examples_behind {r : Override} (h : r.Canonical) :
    ((payloads example? (trail r.partsBehind)).flatMap examplesOf).map String.ofList =
      r.examples := by
  have none : payloads example? (trail (enumNotes (r.enumValues.map String.toList))) = [] := by
    have all := h.skips_enumValues.payloads_append []
    rwa [List.append_nil, payloads_nil] at all
  rw [trail_partsBehind, (h.skips_description marked_example?).payloads_append,
    (examples_of_written h.quotable _).1, none, List.append_nil, List.flatMap_map]
  simp only [examplesOf_quoted, List.flatMap_singleton', List.map_map]
  exact (List.map_congr_left fun e _ => String.ofList_toList).trans (List.map_id r.examples)

theorem Canonical.enumValues_behind {r : Override} (h : r.Canonical) :
    ((payloads enum? (trail r.partsBehind)).flatMap commaList).map String.ofList =
      r.enumValues := by
  rw [trail_partsBehind, (h.skips_description marked_enum?).payloads_append,
    h.skips_examples.payloads_append, (enumValues_of_written h.items).1]
  simp

/-- The free text is read back, since the annotations around it are taken out. -/
theorem Canonical.describe_behind {r : Override} (h : r.Canonical) :
    describe (trail r.partsBehind) = r.description := by
  have list : erase example? (trail (enumNotes (r.enumValues.map String.toList))) =
      trail (enumNotes (r.enumValues.map String.toList)) := by
    have all := h.skips_enumValues.erase_append []
    rwa [List.append_nil, erase_nil, List.append_nil] at all
  have spaces : '@' ∉ (r.examples.map String.toList).flatMap fun _ => [' ', ' '] := by
    simp
  have left : erase enum? (erase example? (trail r.partsBehind)) =
      trail (r.description.toList.map String.toList) ++
        ((r.examples.map String.toList).flatMap (fun _ => [' ', ' ']) ++
          erase enum? (trail (enumNotes (r.enumValues.map String.toList)))) := by
    rw [trail_partsBehind, (h.skips_description marked_example?).erase_append,
      (examples_of_written h.quotable _).2, list, (h.skips_description marked_enum?).erase_append,
      (marked_enum?.skips spaces).erase_append]
  have blanks : ∀ c ∈ (r.examples.map String.toList).flatMap (fun _ => [' ', ' ']) ++
      erase enum? (trail (enumNotes (r.enumValues.map String.toList))), isBlank c = true := by
    intro c mem
    cases List.mem_append.mp mem with
    | inl mem =>
      obtain ⟨e, -, mem⟩ := List.mem_flatMap.mp mem
      rw [show c = ' ' by simpa using mem]
      exact isBlank_space
    | inr mem => exact (enumValues_of_written h.items).2 c mem
  rw [describe, left]
  cases hd : r.description with
  | none =>
    have noWords := words_of_blanks blanks
    rw [Option.toList_none, List.map_nil, trail, List.flatMap_nil, List.nil_append, freeWords,
      noWords]
    rfl
  | some d =>
    obtain ⟨filled, joined⟩ := freeWords_of_isFreeText (h.description d hd) blanks
    have one : trail ((some d).toList.map String.toList) = ' ' :: d.toList := by
      simp [trail]
    rw [one, filled, joined, String.ofList_toList]
    rfl

/-- **Reading what was written gives the record back.** -/
theorem parse_render {r : Override} (h : r.Canonical) : parse r.render = r := by
  obtain ⟨T, N, typed, named, head⟩ := h.head?_render
  obtain ⟨gap, text, -, noAt⟩ := exists_of_head? head
  have behind : ∀ {reader : Recogniser}, reader.Marked →
      payloads reader (collapse r.render.toList) = payloads reader (trail r.partsBehind) := by
    intro reader marked
    rw [text, (marked.skips noAt).payloads_append]
  rw [parse]
  simp only [head, behind marked_example?, behind marked_enum?, Option.map_some, Option.getD_some,
    h.examples_behind, h.enumValues_behind, h.describe_behind, String.ofList_toList, ← typed,
    ← named]

namespace Sample

/-- A record with a bracketed name, a free text, a quoted comma, an empty example and two values. -/
def status : Override where
  typeName := some "string[]"
  name := some "filter[post.status]"
  description := some "Status of a post"
  examples := ["draft, old", ""]
  enumValues := ["in review", "published"]

theorem canonical_status : status.Canonical where
  typeName := ⟨"string[]", rfl, "string".toList, by decide +kernel,
    List.all_eq_true.mp (by decide +kernel), .inr (by decide +kernel)⟩
  name := by
    have inside : ["post.status".toList].all (·.all isNameChar) = true := by decide +kernel
    refine ⟨"filter[post.status]", rfl, "filter".toList, ["post.status".toList],
      by decide +kernel, List.all_eq_true.mp (by decide +kernel), ?_, by decide +kernel⟩
    exact fun g mem => List.all_eq_true.mp (List.all_eq_true.mp inside g mem)
  description := by
    intro s mem
    cases mem
    exact ⟨["Status".toList, "of".toList, "a".toList, "post".toList], by decide +kernel⟩
  examples := by decide +kernel
  enumValues := by decide +kernel

/-- The record is read back from its text. -/
theorem parse_render_status : status.Canonical ∧ parse status.render = status :=
  ⟨canonical_status, parse_render canonical_status⟩

example : status.render =
    "string[] filter[post.status] Status of a post " ++
      "@example \"draft, old\" @example \"\" @enum in review, published" := by
  decide +kernel

end Sample

end Override

end RouteDoc
