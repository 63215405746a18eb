import RouteDoc.Text.Word

/-!
# Annotations inside a tag

The value of a tag may hold annotations: `@example` with a quoted text or a list of plain words, and
`@enum` with everything up to the next `@`. A text is cut into pieces, each of them either one
character outside every annotation or one annotation; a recogniser reads the annotation that a text
begins with.

## Main statements

* `pieces_text`: the pieces of a text, put together, are the text.
-/

set_option autoImplicit false

namespace RouteDoc.Comment

open Text

/-- An annotation at the start of a text. -/
structure Found (s : List Char) where
  /-- What the annotation says. -/
  payload : List Char
  /-- The number of characters it covers. -/
  width : Nat
  /-- It covers at least one. -/
  width_pos : 0 < width := by omega

/-- The text after a keyword and the blanks that have to follow it. -/
def afterKeyword? (keyword s : List Char) : Option (List Char) :=
  match after? keyword s with
  | some (c :: r) => if isBlank c then some (trimStart r) else none
  | _ => none

/-- A text in quotes of one kind: the text with its quotes, and what follows. -/
def quoted? (quote : Char) : List Char → Option (List Char × List Char)
  | [] => none
  | c :: r =>
    if c == quote then
      match r.dropWhile (· != quote) with
      | [] => none
      | q :: rest => some (c :: r.takeWhile (· != quote) ++ [q], rest)
    else none

/-- Whether a character may stand in a plain example. -/
def isPlain (c : Char) : Bool :=
  !isBlank c && c != '@' && c != ','

/-- The further items of a plain list: each of them behind a comma, with blanks allowed on both
sides of the comma. Returns what is left. -/
def moreItems (s : List Char) : List Char :=
  match _h : trimStart s with
  | [] => s
  | c :: r =>
    if c == ',' && ((trimStart r).head?.map isPlain).getD false then
      moreItems ((trimStart r).dropWhile isPlain)
    else s
termination_by s.length
decreasing_by
  have h₁ : (trimStart s).length ≤ s.length := length_dropWhile_le ..
  have h₂ : (trimStart r).length ≤ r.length := length_dropWhile_le ..
  have h₃ : ((trimStart r).dropWhile isPlain).length ≤ (trimStart r).length :=
    length_dropWhile_le ..
  simp only [_h, List.length_cons] at h₁
  omega

/-- A list of plain words: its text, and what follows. -/
def plainList? (s : List Char) : Option (List Char × List Char) :=
  if (s.takeWhile isPlain).isEmpty then none
  else
    let rest := moreItems (s.dropWhile isPlain)
    some (s.take (s.length - rest.length), rest)

/-- The value of an example: a text in double quotes, or one in single quotes, or a plain list. -/
def exampleValue? (s : List Char) : Option (List Char × List Char) :=
  (quoted? '"' s).or ((quoted? '\'' s).or (plainList? s))

/-- The `@example` annotation that a text begins with. -/
def example? (s : List Char) : Option (Found s) :=
  match afterKeyword? "@example".toList s with
  | none => none
  | some r =>
    match exampleValue? r with
    | none => none
    | some (payload, rest) =>
      if h : rest.length < s.length then some ⟨payload, s.length - rest.length, by omega⟩ else none

/-- The `@enum` annotation that a text begins with. -/
def enum? (s : List Char) : Option (Found s) :=
  match afterKeyword? "@enum".toList s with
  | none => none
  | some r =>
    let rest := r.dropWhile (· != '@')
    if h : rest.length < s.length then
      some ⟨r.takeWhile (· != '@'), s.length - rest.length, by omega⟩
    else none

/-- A piece of a text. -/
inductive Piece where
  /-- A character outside every annotation. -/
  | plain (c : Char)
  /-- An annotation: what it says, and its whole text. -/
  | note (payload text : List Char)
deriving DecidableEq, Repr

/-- A reader of the annotation at the start of a text. -/
abbrev Recogniser := (s : List Char) → Option (Found s)

/-- Cuts a text into pieces, taking each annotation at the first place where one begins. -/
def pieces (recognise : Recogniser) (s : List Char) : List Piece :=
  match s with
  | [] => []
  | c :: cs =>
    match recognise (c :: cs) with
    | none => .plain c :: pieces recognise cs
    | some found =>
      .note found.payload ((c :: cs).take found.width)
        :: pieces recognise ((c :: cs).drop found.width)
termination_by s.length
decreasing_by
  · simp
  · have := found.width_pos
    simp only [List.length_drop, List.length_cons]
    omega

/-- The text that a piece stands for. -/
def Piece.text : Piece → List Char
  | .plain c => [c]
  | .note _ text => text

/-- The pieces of a text, put together, are the text. -/
theorem pieces_text (recognise : Recogniser) (s : List Char) :
    (pieces recognise s).flatMap Piece.text = s := by
  fun_induction pieces recognise s with
  | case1 => rfl
  | case2 c cs h ih => simp [Piece.text, ih]
  | case3 c cs found h ih =>
    simp only [List.flatMap_cons, Piece.text, ih, List.take_append_drop]

/-- What the annotations of a text say, in order. -/
def payloads (recognise : Recogniser) (s : List Char) : List (List Char) :=
  (pieces recognise s).filterMap fun
    | .plain _ => none
    | .note payload _ => some payload

/-- The text with a space in the place of each annotation. -/
def erase (recognise : Recogniser) (s : List Char) : List Char :=
  (pieces recognise s).map fun
    | .plain c => c
    | .note _ _ => ' '

end RouteDoc.Comment
