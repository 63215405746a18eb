import RouteDoc.Text.Blank

/-!
# Doc blocks

A documentation comment is a summary and a list of tags. Its lines are read without the comment
marks and without the gutter of asterisks; a line that begins with `@` opens a tag, and every other
line belongs to the tag above it, or to the summary when there is none. The annotations `@example`
and `@enum` continue a tag, so they open one only when none is open.

`DocBlock.render` writes a block back as a comment.
-/

set_option autoImplicit false

namespace RouteDoc

open Text

/-- One tag of a doc block. -/
structure DocTag where
  /-- The name, with its `@`. -/
  name : String
  /-- The text behind the name; its lines are joined by line feeds. -/
  value : String
deriving DecidableEq, Repr

/-- A documentation comment. -/
structure DocBlock where
  /-- The lines above the first tag, joined by line feeds. -/
  summary : String := ""
  /-- The tags, in order. -/
  tags : List DocTag := []
deriving DecidableEq, Repr

namespace DocBlock

/-- The annotations that continue an open tag. -/
def continuing : List (List Char) :=
  ["@example".toList, "@enum".toList]

/-- Whether the first word of a line is exactly `tag`. -/
def beginsWith (line tag : List Char) : Bool :=
  match after? tag line with
  | none => false
  | some [] => true
  | some (c :: _) => isBlank c

/-- The text between the comment marks. -/
def body (raw : List Char) : List Char :=
  let s := trim raw
  let s := (after? "/**".toList s).getD s
  (before? "*/".toList s).getD s

/-- A line without the blanks around it and without one leading asterisk. -/
def stripGutter (line : List Char) : List Char :=
  let l := trim line
  trim ((after? ['*'] l).getD l)

/-- The lines of a comment that say something. -/
def contentLines (raw : List Char) : List (List Char) :=
  ((lines (body raw)).map stripGutter).filter (! List.isEmpty ·)

/-- A tag under construction: its name, and the lines of its value that are not empty. -/
structure Open where
  /-- The name of the tag. -/
  name : List Char
  /-- The lines so far, the last one first. -/
  linesRev : List (List Char)

/-- Whether a line opens a tag, given whether one is open. -/
def opens (hasTag : Bool) (line : List Char) : Bool :=
  line.head? == some '@' && !(hasTag && continuing.any (beginsWith line))

/-- The tag that a line opens. -/
def openTag (line : List Char) : Open :=
  let (name, rest) := cutAtBlank line
  let value := trim rest
  ⟨name, if value.isEmpty then [] else [value]⟩

/-- The tag with one more line. -/
def Open.addLine (t : Open) (line : List Char) : Open :=
  { t with linesRev := line :: t.linesRev }

/-- The lines joined by line feeds. -/
def joinLines (ls : List (List Char)) : String :=
  String.ofList (['\n'].intercalate ls)

/-- The finished tag. -/
def Open.close (t : Open) : DocTag :=
  ⟨String.ofList t.name, joinLines t.linesRev.reverse⟩

/-- Reads the lines below an open tag. -/
def readTags (t : Open) : List (List Char) → List DocTag
  | [] => [t.close]
  | l :: ls =>
    if opens true l then t.close :: readTags (openTag l) ls else readTags (t.addLine l) ls

/-- Reads lines with no tag open: those before the first tag, and the tags. -/
def readLines : List (List Char) → List (List Char) × List DocTag
  | [] => ([], [])
  | l :: ls =>
    if opens false l then ([], readTags (openTag l) ls)
    else
      let (summary, tags) := readLines ls
      (l :: summary, tags)

/-- The doc block of a raw comment. -/
def parse (raw : String) : DocBlock :=
  let (summary, tags) := readLines (contentLines raw.toList)
  ⟨joinLines summary, tags⟩

/-- The values of the tags of that name, in order. -/
def valuesOf (b : DocBlock) (tag : String) : List String :=
  (b.tags.filter (·.name == tag)).map DocTag.value

/-- The lines of a tag as they stand in a comment. -/
def DocTag.render (t : DocTag) : List (List Char) :=
  match lines t.value.toList with
  | [] => [t.name.toList]
  | l :: ls => (if l.isEmpty then t.name.toList else t.name.toList ++ ' ' :: l) :: ls

/-- The comment that holds a block: the summary and the tags, one line each behind a gutter. -/
def render (b : DocBlock) : String :=
  let summary := if b.summary.isEmpty then [] else lines b.summary.toList
  let body := summary ++ b.tags.flatMap DocTag.render
  let written := body.flatMap fun l => " * ".toList ++ l ++ ['\n']
  String.ofList ("/**\n".toList ++ written ++ " */".toList)

end DocBlock

end RouteDoc
