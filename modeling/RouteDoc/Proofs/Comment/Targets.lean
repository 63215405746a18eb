import RouteDoc.Proofs.Comment.Head
import RouteDoc.Synthesis.Basic

/-!
# Which parameters a tag is about

A record is about the parameters whose key or whose value has its name, letter by letter. The name
is what the second word of the tag begins with: name characters, and bracket groups behind them. A
word that goes on with anything else, such as a hyphen, is read up to there, and the record is about
the parameter with the shorter name. So no tag is about another parameter than the one it was
written for just if its second word is read as a whole or not at all.

## Main statements

* `head?_typed`: the head of a text, from any second word.
* `targets_parse_iff`: a tag is about the parameters with the name that is read.
* `parse_targets_only_iff`: when it is about those with its second word alone.
* `targets_shorterName`: a tag for `user-id` is about `user`.
-/

set_option autoImplicit false

namespace RouteDoc.Override

open Text Comment

/-! ## The readable part of a word -/

/-- Whether a word begins as a name does. -/
def beginsName (v : List Char) : Bool :=
  v.head?.any isNameChar

/-- What a word begins with that is read as a name. -/
def readable (v : List Char) : List Char :=
  v.takeWhile isNameChar ++ (brackets (v.dropWhile isNameChar)).1

/-- What follows that in the word. -/
def unread (v : List Char) : List Char :=
  (brackets (v.dropWhile isNameChar)).2

/-- A name is read just where a character of names is first. -/
theorem isEmpty_takeWhile_isNameChar (v : List Char) :
    (v.takeWhile isNameChar).isEmpty = !beginsName v := by
  cases v with
  | nil => rfl
  | cons c v =>
    cases inName : isNameChar c with
    | true => simp [beginsName, inName]
    | false => simp [beginsName, inName]

/-- A bracket that is not closed begins no group. -/
theorem brackets_cons_of_open {r : List Char}
    (noClose : ∀ c ∈ (r.dropWhile isNameChar).head?, c ≠ ']') :
    brackets ('[' :: r) = ([], '[' :: r) := by
  rw [brackets]
  split
  next rest close =>
    rw [close] at noClose
    exact absurd rfl (noClose ']' rfl)
  next => rfl

/-- Bracket groups do not reach over a space. -/
theorem brackets_append_space (s : List Char) {rest : List Char}
    (stop : ∀ c ∈ rest.head?, c = ' ') :
    brackets (s ++ rest) = ((brackets s).1, (brackets s).2 ++ rest) := by
  have noName : ∀ c ∈ rest.head?, isNameChar c = false := fun c mem => by
    rw [stop c mem]
    decide
  fun_induction brackets s with
  | case1 r behind close more left split ih =>
    rw [split] at ih
    have close' : (r ++ rest).dropWhile isNameChar = ']' :: (behind ++ rest) := by
      rw [dropWhile_append_left noName, close, List.cons_append]
    rw [List.cons_append, brackets_cons close', takeWhile_append_left noName, ih]
  | case2 r noClose =>
    refine brackets_cons_of_open fun c mem close => ?_
    change c ∈ ((r ++ rest).dropWhile isNameChar).head? at mem
    rw [dropWhile_append_left noName, List.head?_append] at mem
    cases left : r.dropWhile isNameChar with
    | nil =>
      rw [left] at mem
      rw [stop c mem] at close
      cases close
    | cons d left' =>
      rw [left] at mem
      cases mem
      exact noClose left' (left.trans (congrArg (· :: left') close))
  | case3 s other =>
    refine brackets_of_head_ne fun c mem opens => ?_
    cases s with
    | nil =>
      rw [stop c mem] at opens
      cases opens
    | cons d s =>
      cases mem
      exact other s (congrArg (· :: s) opens)

/-- What brackets read is made of whole groups. -/
theorem exists_groups (s : List Char) : ∃ groups : List (List Char),
    (∀ g ∈ groups, ∀ c ∈ g, isNameChar c = true) ∧ (brackets s).1 = groups.flatMap group := by
  fun_induction brackets s with
  | case1 r rest close more left split ih =>
    obtain ⟨groups, inside, read⟩ := ih
    rw [split] at read
    refine ⟨r.takeWhile isNameChar :: groups, List.forall_mem_cons.mpr ⟨?_, inside⟩, ?_⟩
    · exact fun c mem => List.mem_takeWhile_imp mem
    · change more = _ at read
      simp [group, read]
  | case2 r noClose => exact ⟨[], List.forall_mem_nil _, rfl⟩
  | case3 s other => exact ⟨[], List.forall_mem_nil _, rfl⟩

/-- What is read of a word that begins as a name does is a name. -/
theorem isName_readable {v : List Char} (begins : beginsName v = true) : IsName (readable v) := by
  obtain ⟨groups, inside, read⟩ := exists_groups (v.dropWhile isNameChar)
  refine ⟨v.takeWhile isNameChar, groups, fun empty => ?_, fun c mem => List.mem_takeWhile_imp mem,
    inside, congrArg (v.takeWhile isNameChar ++ ·) read⟩
  have filled := isEmpty_takeWhile_isNameChar v
  rw [empty, begins] at filled
  cases filled

/-- Of a name nothing is left out. -/
theorem IsName.readable_eq {v : List Char} (h : IsName v) :
    beginsName v = true ∧ readable v = v := by
  obtain ⟨stem, groups, filled, inStem, inGroups, rfl⟩ := h
  have stop : ∀ c ∈ (groups.flatMap group).head?, isNameChar c = false := by
    intro c mem
    cases groups with
    | nil => cases mem
    | cons g groups => cases mem; decide
  have groups_read : brackets (groups.flatMap group) = (groups.flatMap group, []) := by
    have read := @brackets_append groups inGroups [] (by simp)
    rwa [List.append_nil] at read
  refine ⟨?_, ?_⟩
  · obtain ⟨c, stem, rfl⟩ := List.exists_cons_of_ne_nil filled
    exact inStem c List.mem_cons_self
  · rw [readable, takeWhile_append_of_stop inStem stop, dropWhile_append_of_stop inStem stop,
      groups_read]

/-! ## The head of a tag -/

/-- The head of a text that begins with a type: the name is what is read of the second word. -/
theorem head?_typed {typeName v rest : List Char} (typed : IsTypeName typeName)
    (word : IsWordText v) (stop : ∀ c ∈ rest.head?, c = ' ') :
    head? (typeName ++ ' ' :: (v ++ rest)) =
      if beginsName v then some ⟨typeName, readable v, unread v ++ rest⟩ else none := by
  obtain ⟨filled, behind⟩ := typed.typePart_append (v ++ rest)
  have noName : ∀ c ∈ rest.head?, isNameChar c = false := fun c mem => by
    rw [stop c mem]
    decide
  have start : trimStart (v ++ rest) = v ++ rest := by
    obtain ⟨c, v, rfl⟩ := List.exists_cons_of_ne_nil word.ne_nil
    exact List.dropWhile_cons_of_neg (by simp [word.ink c List.mem_cons_self])
  have named : namePart? (' ' :: (v ++ rest)) =
      if beginsName v then some (readable v, unread v ++ rest) else none := by
    rw [namePart?, start, takeWhile_append_left noName, dropWhile_append_left noName,
      brackets_append_space _ stop, isEmpty_takeWhile_isNameChar, isBlank_space, Bool.not_not,
      Bool.true_and]
    rfl
  rw [head?_eq, filled, if_neg Bool.false_ne_true, behind, named]
  cases beginsName v <;> rfl

/-- The text of a tag that begins with two words. -/
theorem collapse_two_words {t v : List Char} (first : IsWordText t) (second : IsWordText v)
    (s : List Char) : ∃ rest, (∀ c ∈ rest.head?, c = ' ') ∧
      collapse (t ++ ' ' :: (v ++ ' ' :: s)) = t ++ ' ' :: (v ++ rest) := by
  have cut : words (t ++ ' ' :: (v ++ ' ' :: s)) = t :: v :: words s := by
    rw [words_append_blank isBlank_space, words_append_blank isBlank_space,
      words_of_isWordText first, words_of_isWordText second]
    rfl
  rw [collapse, cut]
  cases words s with
  | nil => exact ⟨[], by simp, by simp [List.intercalate_cons_cons]⟩
  | cons w ws =>
    refine ⟨' ' :: [' '].intercalate (w :: ws), fun c mem => ?_, by simp [List.intercalate_cons_cons]⟩
    cases mem
    rfl

/-! ## Targets -/

/-- The name in a tag that begins with a type is what is read of the second word. -/
theorem name_parse {typeName v : String} (typed : IsTypeName typeName.toList)
    (word : IsWordText v.toList) (rest : String) :
    (parse (typeName ++ " " ++ v ++ " " ++ rest)).name =
      if beginsName v.toList then some (String.ofList (readable v.toList)) else none := by
  obtain ⟨rest', stop, text⟩ := collapse_two_words typed.isWordText word rest.toList
  have value : (typeName ++ " " ++ v ++ " " ++ rest).toList =
      typeName.toList ++ ' ' :: (v.toList ++ ' ' :: rest.toList) := by
    simp
  show (head? (collapse _)).map _ = _
  rw [value, text, head?_typed typed word stop]
  cases beginsName v.toList <;> rfl

/-- A tag that begins with a type is about the parameters of which the key or the value is what is
read of its second word. -/
theorem targets_parse_iff {typeName v : String} (typed : IsTypeName typeName.toList)
    (word : IsWordText v.toList) (rest key w : String) :
    (parse (typeName ++ " " ++ v ++ " " ++ rest)).targets key w = true ↔
      beginsName v.toList = true ∧ (readable v.toList = key.toList ∨ readable v.toList = w.toList) := by
  rw [targets, name_parse typed word]
  have text : ∀ t : String, String.ofList (readable v.toList) = t ↔ readable v.toList = t.toList :=
    fun t => by rw [← String.toList_inj, String.toList_ofList]
  cases beginsName v.toList with
  | false => simp
  | true => simp [text]

/-- **A tag is about no other parameter than the one in its second word** just if this word is a
name, or begins with a character that stands in none. -/
theorem parse_targets_only_iff {typeName v : String} (typed : IsTypeName typeName.toList)
    (word : IsWordText v.toList) (rest : String) :
    (∀ key w : String, IsWordText w.toList →
      (parse (typeName ++ " " ++ v ++ " " ++ rest)).targets (Synthesis.keyOf key w) w = true →
        v = w ∨ v = Synthesis.keyOf key w) ↔
      IsName v.toList ∨ beginsName v.toList = false := by
  constructor
  · intro only
    cases begins : beginsName v.toList with
    | false => exact .inr rfl
    | true =>
      -- The part that is read is a value of its own, and the tag is about it.
      have name := isName_readable begins
      have target := (targets_parse_iff typed word rest
        (Synthesis.keyOf "" (String.ofList (readable v.toList)))
        (String.ofList (readable v.toList))).mpr ⟨begins, .inr String.toList_ofList.symm⟩
      rcases only "" _ (by simpa using name.isWordText) target with same | same
      · rw [same, String.toList_ofList]
        exact .inl name
      · -- A key with nothing in front begins with a bracket, and no name does.
        have bracket : ∀ w : String, beginsName (Synthesis.keyOf "" w).toList = false := by
          intro w
          have noName : isNameChar '[' = false := by decide
          simp [Synthesis.keyOf, beginsName, noName]
        rw [same, bracket] at begins
        cases begins
  · intro whole key w _ target
    obtain ⟨begins, about⟩ := (targets_parse_iff typed word rest _ w).mp target
    rcases whole with name | none_begins
    · rw [name.readable_eq.2] at about
      rcases about with same | same
      · exact .inr (String.toList_inj.mp same)
      · exact .inl (String.toList_inj.mp same)
    · rw [begins] at none_begins
      cases none_begins

namespace Sample

theorem isTypeName_string : IsTypeName "string".toList :=
  ⟨"string".toList, by decide, by decide +kernel, .inl rfl⟩

/-- A tag with a name in it is about no other parameter than that. -/
theorem parse_targets_only_userId :
    IsTypeName "string".toList ∧ IsWordText "filter[user.id]".toList ∧
    IsName "filter[user.id]".toList ∧ ∀ key w : String, IsWordText w.toList →
      (parse ("string" ++ " " ++ "filter[user.id]" ++ " " ++ "Owner")).targets
        (Synthesis.keyOf key w) w = true →
      "filter[user.id]" = w ∨ "filter[user.id]" = Synthesis.keyOf key w := by
  have word : IsWordText "filter[user.id]".toList := by decide +kernel
  have name : IsName "filter[user.id]".toList :=
    ⟨"filter".toList, ["user.id".toList], by decide, by decide +kernel, by decide +kernel,
      by decide +kernel⟩
  exact ⟨isTypeName_string, word, name,
    (parse_targets_only_iff isTypeName_string word "Owner").mpr (.inl name)⟩

/-- The name in a tag for `user-id` is read up to the hyphen, so the tag is about `user`. -/
theorem targets_shorterName :
    IsTypeName "string".toList ∧ IsWordText "user-id".toList ∧ IsWordText "user".toList ∧
    (parse ("string" ++ " " ++ "user-id" ++ " " ++ "Owner")).targets
      (Synthesis.keyOf "filter" "user") "user" = true ∧
    "user-id" ≠ "user" ∧ "user-id" ≠ Synthesis.keyOf "filter" "user" :=
  ⟨isTypeName_string, by decide +kernel, by decide +kernel, by decide +kernel, by decide, by decide⟩

end Sample

end RouteDoc.Override
