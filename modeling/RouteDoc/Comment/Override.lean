import RouteDoc.Comment.Annotation
import RouteDoc.Comment.Block

/-!
# Override records

A tag of a documentation comment can describe one parameter: a type, a name, a free text, examples
and the values it may take. Reading never fails; a tag without a type and a name still gives a
record with those two absent.
-/

set_option autoImplicit false

namespace RouteDoc

open Text Comment

/-- What a tag says about one parameter. -/
structure Override where
  /-- The type, as written. -/
  typeName : Option String := none
  /-- The full query key, or the bare name of the value. -/
  name : Option String := none
  /-- The free text. -/
  description : Option String := none
  /-- The examples, in order. -/
  examples : List String := []
  /-- The values that the parameter may take, in order. -/
  enumValues : List String := []
deriving DecidableEq, Repr

namespace Override

/-- Whether a character may stand in a name. -/
def isNameChar (c : Char) : Bool :=
  isWord c || c == '.'

/-- The bracket groups at the start of a text, and what follows them. -/
def brackets (s : List Char) : List Char × List Char :=
  match s with
  | '[' :: r =>
    match _h : r.dropWhile isNameChar with
    | ']' :: rest =>
      let (more, rest) := brackets rest
      ('[' :: r.takeWhile isNameChar ++ ']' :: more, rest)
    | _ => ([], s)
  | _ => ([], s)
termination_by s.length
decreasing_by
  have := length_dropWhile_le isNameChar r
  simp only [_h, List.length_cons] at this
  simp only [List.length_cons]
  omega

/-- The head of a record: the type, the name, and the text after them. -/
structure Head where
  /-- The type. -/
  typeName : List Char
  /-- The name. -/
  name : List Char
  /-- The text after the name. -/
  rest : List Char
deriving DecidableEq, Repr

/-- The type and the name at the start of a text: word characters, perhaps with an empty pair of
brackets; a blank; and a name with its bracket groups. -/
def head? (s : List Char) : Option Head :=
  let word := s.takeWhile isWord
  let rest := s.dropWhile isWord
  let (typeName, rest) := match rest with
    | '[' :: ']' :: r => (word ++ ['[', ']'], r)
    | r => (word, r)
  match rest with
  | c :: r =>
    if !word.isEmpty && isBlank c then
      let r := trimStart r
      let stem := r.takeWhile isNameChar
      if stem.isEmpty then none
      else
        let (groups, rest) := brackets (r.dropWhile isNameChar)
        some ⟨typeName, stem ++ groups, rest⟩
    else none
  | [] => none

/-- The text between quotes of one kind. -/
def unquoteWith? (quote : Char) (s : List Char) : Option (List Char) :=
  (after? [quote] s).bind (before? [quote])

/-- The examples of one annotation: the text between the quotes, or the items of a list. -/
def examplesOf (payload : List Char) : List (List Char) :=
  match (unquoteWith? '"' payload).or (unquoteWith? '\'' payload) with
  | some text => [text]
  | none => commaList payload

/-- The words of a text that are not made of dashes alone. -/
def freeWords (s : List Char) : List (List Char) :=
  (words s).filter fun w => !w.all (· == '-')

/-- The free text: what is left of the text after the head when first the examples and then the
value lists are cut out. -/
def describe (rest : List Char) : Option String :=
  let ws := freeWords (erase enum? (erase example? rest))
  if ws.isEmpty then none else some (String.ofList ([' '].intercalate ws))

/-- The record that the value of a tag stands for. -/
def parse (value : String) : Override :=
  let text := collapse value.toList
  let head := head? text
  { typeName := head.map fun h => String.ofList h.typeName
    name := head.map fun h => String.ofList h.name
    description := describe ((head.map Head.rest).getD text)
    examples := ((payloads example? text).flatMap examplesOf).map String.ofList
    enumValues := ((payloads enum? text).flatMap commaList).map String.ofList }

/-- Whether the record is about the parameter with that key for that value: its name is either. -/
def targets (r : Override) (key valueName : String) : Bool :=
  r.name == some key || r.name == some valueName

/-- The records of a block: one for each tag of that name. -/
def ofBlock (b : DocBlock) (tag : String) : List Override :=
  (b.valuesOf tag).map parse

/-- The records of a raw comment. -/
def ofComment (raw tag : String) : List Override :=
  ofBlock (DocBlock.parse raw) tag

end Override

end RouteDoc
