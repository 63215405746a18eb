import RouteDoc.Comment.Override
import RouteDoc.Proofs.Comment.BlockLines

/-!
# Tags over several lines

A tag may be broken over the lines of a comment wherever two of its words meet. Each line below the
first has a gutter, with any blanks before and behind it; lines without words may stand between
them, and lines may end in either way. None of this reaches the record: it is the one that the text
of the tag gives on its own.

The one thing to heed is the beginning of a line. A word with an `@` there opens another tag, unless
it is one of the continuing annotations.

## Main statements

* `contentLines_comment`: the lines that are read are the texts behind the gutters, trimmed, without
  the blank ones.
* `readLines_of_words`: lines whose words are a name and the words of a text are one tag.
* `ofComment_wrapped`: the record of a tag does not depend on how it is wrapped.
-/

set_option autoImplicit false

namespace RouteDoc

open Text DocBlock

/-! ## Wrapped comments -/

/-- The end of a line. -/
def lineEnd (crlf : Bool) : List Char :=
  if crlf then ['\r', '\n'] else ['\n']

/-- A line of a comment below its first: how the line above it ends, the blanks in front of the
gutter, and the text behind it. -/
structure GutterLine where
  /-- Whether the line above ends in a carriage return and a line feed. -/
  crlf : Bool := false
  /-- What stands in front of the gutter. -/
  indent : List Char := [' ']
  /-- What stands behind the gutter. -/
  text : List Char

/-- The line as it is written, with the end of the line above. -/
def GutterLine.written (l : GutterLine) : List Char :=
  lineEnd l.crlf ++ (l.indent ++ '*' :: l.text)

/-- A comment, by its lines. -/
structure Wrapping where
  /-- What stands behind the opening mark on its line. -/
  opening : List Char
  /-- The lines below. -/
  below : List GutterLine
  /-- How the last of them ends and what stands in front of the closing mark, unless the mark stands
  at the end of that line. -/
  closing : Option (Bool × List Char)

namespace Wrapping

/-- What stands between the last line and the closing mark. -/
def beforeMark (w : Wrapping) : List Char :=
  match w.closing with
  | none => []
  | some (crlf, indent) => lineEnd crlf ++ indent

/-- The comment as it is written. -/
def comment (w : Wrapping) : String :=
  String.ofList ("/**".toList ++
    (w.opening ++ (w.below.flatMap GutterLine.written ++ w.beforeMark)) ++ "*/".toList)

/-- The texts of the lines. -/
def texts (w : Wrapping) : List (List Char) :=
  w.opening :: w.below.map GutterLine.text

/-- The words of the lines, line by line, without the blank lines. -/
def wordLines (w : Wrapping) : List (List (List Char)) :=
  (w.texts.map words).filter (! List.isEmpty ·)

/-- Whether a text is blank and ends no line. -/
def IsIndent (s : List Char) : Prop :=
  ∀ c ∈ s, isBlank c = true ∧ c ≠ '\n'

instance (s : List Char) : Decidable (IsIndent s) :=
  inferInstanceAs (Decidable (∀ c ∈ s, isBlank c = true ∧ c ≠ '\n'))

/-- A comment shows a tag and its text: the words of its lines are the tag and the words of the
text. -/
structure Wraps (w : Wrapping) (tag text : List Char) : Prop where
  /-- The texts of the lines are lines. -/
  one : ∀ s ∈ w.texts, '\n' ∉ s
  /-- There are blanks in front of the gutters. -/
  indent : ∀ l ∈ w.below, IsIndent l.indent
  /-- There are blanks in front of the closing mark. -/
  closing : ∀ c ∈ w.closing, IsIndent c.2
  /-- The words are the tag and those of the text. -/
  words : w.wordLines.flatten = tag :: words text
  /-- A line below the tag begins with an `@` only if its first word is a continuing annotation. -/
  continues : ∀ ws ∈ w.wordLines.tail, ∀ word ∈ ws.head?, word.head? = some '@' → word ∈ continuing

end Wrapping

/-! ## The lines that are read -/

namespace DocBlock

/-- The lines that say something, behind their gutters. -/
def said (ls : List (List Char)) : List (List Char) :=
  (ls.map stripGutter).filter (! List.isEmpty ·)

theorem said_cons (l : List Char) (ls : List (List Char)) :
    said (l :: ls) = said [l] ++ said ls := by
  rw [said, said, said, ← List.filter_append, ← List.map_append]
  rfl

/-- Blanks at the end of a line do not matter. -/
theorem stripGutter_append_blanks (l : List Char) {back : List Char}
    (blank : ∀ c ∈ back, isBlank c = true) : stripGutter (l ++ back) = stripGutter l := by
  rw [stripGutter, stripGutter, trim_append_blanks l blank]

/-- Without a star there is no gutter but blanks. -/
theorem stripGutter_of_head_ne {l : List Char} (bare : (trim l).head? ≠ some '*') :
    stripGutter l = trim l := by
  have bare' : after? ['*'] (trim l) = none := by
    cases text : trim l with
    | nil => rfl
    | cons c t =>
      rw [text] at bare
      exact after?_of_head_ne (fun same => bare (congrArg some same.symm)) [] t
  rw [stripGutter, bare', Option.getD_none, trim_eq_self_iff.mpr (trimmed_trim l)]

/-- The end of a line takes part in no line. -/
theorem said_lineEnd {l : List Char} (one : '\n' ∉ l) (crlf : Bool) (rest : List Char) :
    said (lines (l ++ (lineEnd crlf ++ rest))) = said [l] ++ said (lines rest) := by
  cases crlf with
  | false =>
    show said (lines (l ++ '\n' :: rest)) = _
    rw [lines_append_lf one, said_cons]
  | true =>
    have one' : '\n' ∉ l ++ ['\r'] := by simp [one]
    have shifted : l ++ (lineEnd true ++ rest) = l ++ ['\r'] ++ '\n' :: rest := by simp [lineEnd]
    have same : said [l ++ ['\r']] = said [l] := by
      have blank : ∀ c ∈ ['\r'], isBlank c = true := by decide
      rw [said, List.map_singleton, stripGutter_append_blanks l blank]
      rfl
    rw [shifted, lines_append_lf one', said_cons, same]

end DocBlock

namespace Wrapping

/-- The lines below a first one are read without their gutters. The first line is any: it is the
line that stands above those which are still to be read. -/
theorem said_below {below : List GutterLine} (one : ∀ l ∈ below, '\n' ∉ l.text)
    (indent : ∀ l ∈ below, IsIndent l.indent) {above : List Char} (one' : '\n' ∉ above)
    {rest : List Char} (last : ∀ l, '\n' ∉ l → said (lines (l ++ rest)) = said [l]) :
    said (lines (above ++ (below.flatMap GutterLine.written ++ rest))) =
      said [above] ++ (below.map fun l => trim l.text).filter (! List.isEmpty ·) := by
  -- A line is written with the end of the line above it, so what is cut off in each step is the line
  -- above, and the line behind the gutter takes its place.
  induction below generalizing above with
  | nil =>
    rw [List.flatMap_nil, List.nil_append, last above one']
    exact (List.append_nil _).symm
  | cons l below ih =>
    obtain ⟨line, lines'⟩ := List.forall_mem_cons.mp one
    obtain ⟨blanks, blanks'⟩ := List.forall_mem_cons.mp indent
    have regroup : above ++ ((l :: below).flatMap GutterLine.written ++ rest) =
        above ++ (lineEnd l.crlf ++
          (l.indent ++ '*' :: l.text ++ (below.flatMap GutterLine.written ++ rest))) := by
      simp [GutterLine.written]
    have here : '\n' ∉ l.indent ++ '*' :: l.text := by
      simp only [List.mem_append, List.mem_cons, not_or]
      exact ⟨fun lf => (blanks _ lf).2 rfl, by decide, line⟩
    have stripped : said [l.indent ++ '*' :: l.text] =
        [trim l.text].filter (! List.isEmpty ·) := by
      rw [said, List.map_singleton, stripGutter_gutter fun c mem => (blanks c mem).1]
    rw [regroup, said_lineEnd one', ih lines' blanks' here, stripped, List.map_cons,
      ← List.filter_append]
    rfl

/-- **The lines that are read** of a wrapped tag are the texts behind the gutters, trimmed, without
the blank ones. -/
theorem contentLines_comment {w : Wrapping} {tag text : List Char} (h : w.Wraps tag text)
    (mark : tag.head? = some '@') :
    contentLines w.comment.toList = (w.texts.map trim).filter (! List.isEmpty ·) := by
  obtain ⟨opening, below⟩ := List.forall_mem_cons.mp h.one
  have last : ∀ l, '\n' ∉ l → said (lines (l ++ w.beforeMark)) = said [l] := by
    intro l one
    rw [beforeMark]
    cases mark : w.closing with
    | none => rw [List.append_nil, lines_of_not_mem one]
    | some closing =>
      have blanks := h.closing closing mark
      have lone : '\n' ∉ closing.2 := fun lf => (blanks _ lf).2 rfl
      have nothing : stripGutter closing.2 = [] :=
        stripGutter_append_blanks [] fun c mem => (blanks c mem).1
      rw [said_lineEnd one, lines_of_not_mem lone, said, said, List.map_singleton,
        List.map_singleton, nothing]
      exact List.append_nil _
  -- The first line has no gutter. It would lose an asterisk at its front, but its first word, if there
  -- is one, is the tag.
  have bare : stripGutter w.opening = trim w.opening := by
    refine stripGutter_of_head_ne fun star => ?_
    rw [← head?_first_word (trimmed_trim w.opening).head, words_trim] at star
    have words := h.words
    rw [wordLines, texts, List.map_cons, List.filter_cons] at words
    cases first : Text.words w.opening with
    | nil => rw [first] at star; cases star
    | cons v vs =>
      rw [first] at words star
      have same : v = tag := (List.cons.inj words).1
      rw [same] at star
      rw [List.head?_cons, Option.bind_some, mark] at star
      exact absurd star (by decide)
  have text : w.comment.toList = "/**".toList ++
      (w.opening ++ (w.below.flatMap GutterLine.written ++ w.beforeMark)) ++ "*/".toList :=
    String.toList_ofList
  rw [text, contentLines, body_comment]
  have read := said_below (fun l mem => below _ (List.mem_map_of_mem mem)) h.indent opening last
  refine read.trans ?_
  rw [said, List.map_singleton, bare, ← List.filter_append, texts, List.map_cons, List.map_map]
  rfl

end Wrapping

/-! ## The tag that is read -/

namespace DocBlock

/-- The words of a tag that a line opens are those behind its first. -/
theorem words_openTag (l : List Char) :
    (openTag l).linesRev.reverse.flatMap words = words (cutAtBlank l).2 := by
  rw [linesRev_openTag, ← isEmpty_words]
  split
  next none => rw [List.isEmpty_iff.mp none, List.reverse_nil, List.flatMap_nil]
  next => rw [List.reverse_singleton, List.flatMap_singleton, words_trim]

/-- **Lines whose words are a name and the words of a text are one tag,** provided that those below
the first go on with it. -/
theorem readLines_of_words {ls : List (List Char)} (content : ∀ l ∈ ls, IsContent l)
    {tag text : List Char} (mark : tag.head? = some '@')
    (shown : ls.flatMap words = tag :: words text) (go : ∀ l ∈ ls.tail, Continues l) :
    ∃ value, readLines ls = ([], [⟨String.ofList tag, String.ofList value⟩]) ∧
      words value = words text := by
  cases ls with
  | nil => cases shown
  | cons l ls =>
    obtain ⟨first, behind⟩ := List.forall_mem_cons.mp content
    rw [List.flatMap_cons, words_cutAtBlank first.head first.filled, List.cons_append] at shown
    obtain ⟨named, others⟩ := List.cons.inj shown
    have opened : opens false l = true := by
      rw [opens_false, ← head?_first_word first.head,
        words_cutAtBlank first.head first.filled, named, List.head?_cons, Option.bind_some, mark]
      rfl
    have same : ∀ k ∈ ls, opens true k = false := fun k mem =>
      (opens_true_eq_false_iff (behind k mem).head).mpr (go k mem)
    have tags : readTags (openTag l) ls =
        [⟨String.ofList tag, joinLines ((openTag l).linesRev.reverse ++ ls)⟩] := by
      rw [← List.append_nil ls, readTags_append same, readTags, Open.close, ← named]
      simp [openTag]
    refine ⟨['\n'].intercalate ((openTag l).linesRev.reverse ++ ls), ?_, ?_⟩
    · rw [readLines, opened, if_pos rfl, tags]
      rfl
    · rw [words_join_lines, List.flatMap_append, words_openTag, others]

end DocBlock

/-- A record hangs on the words of its text alone. -/
theorem Override.parse_congr {a b : String} (same : words a.toList = words b.toList) :
    parse a = parse b := by
  have collapsed : collapse a.toList = collapse b.toList := by rw [collapse, same, collapse]
  rw [parse, parse, collapsed]

/-- The lines of a wrapping have the words that it puts on them. -/
theorem Wrapping.map_words_texts (w : Wrapping) :
    ((w.texts.map trim).filter (! List.isEmpty ·)).map words = w.wordLines := by
  rw [wordLines]
  induction w.texts with
  | nil => rfl
  | cons s ss ih =>
    rw [List.map_cons, List.map_cons, List.filter_cons, List.filter_cons, ← isEmpty_words, ← ih]
    split
    next => rw [List.map_cons, words_trim]
    next => rfl

/-- **How a tag is wrapped does not matter.** However a tag and the words of its text are broken
over the lines of a comment, the comment holds one record for the tag, and this is the record of the
text. The tag holds no blank, since it is one of the words. -/
theorem Override.ofComment_wrapped {tag text : String} (mark : tag.toList.head? = some '@')
    {w : Wrapping} (wraps : w.Wraps tag.toList text.toList) :
    ofComment w.comment tag = [parse text] := by
  have read := Wrapping.contentLines_comment wraps mark
  have content : ∀ l ∈ contentLines w.comment.toList, IsContent l :=
    fun l mem => isContent_of_mem_contentLines mem
  have lines : (contentLines w.comment.toList).map words = w.wordLines := by
    rw [read, w.map_words_texts]
  have shown : (contentLines w.comment.toList).flatMap words = tag.toList :: words text.toList := by
    rw [List.flatMap_def, lines, wraps.words]
  have go : ∀ l ∈ (contentLines w.comment.toList).tail, Continues l := by
    intro l mem first
    have inWords : words l ∈ w.wordLines.tail := by
      rw [← lines, ← List.map_tail]
      exact List.mem_map_of_mem mem
    rw [← head?_first_word (content l (List.mem_of_mem_tail mem)).head] at first
    obtain ⟨word, leads, begins⟩ := Option.bind_eq_some_iff.mp first
    exact ⟨word, wraps.continues _ inWords word leads begins, leads⟩
  obtain ⟨value, tags, same⟩ := readLines_of_words content mark shown go
  rw [ofComment, ofBlock, parse_eq, tags, valuesOf, String.ofList_toList]
  have one : parse (String.ofList value) = parse text :=
    parse_congr (by rw [String.toList_ofList, same])
  simp [one]

namespace Sample

/-- A comment that breaks a tag behind its name and in front of an annotation, with a blank line
between. -/
def wrapped : Wrapping where
  opening := []
  below := [
    { text := " @queryParam".toList },
    { crlf := true, text := "\tstring  status".toList },
    { indent := ['\t'], text := [' '] },
    { text := " @enum draft,".toList },
    { text := "*published* ".toList }]
  closing := some (true, [' '])

/-- The text of that tag. -/
def statusText : String :=
  "string status @enum draft, *published*"

/-- The comment shows the tag with this text, and holds its record. -/
theorem ofComment_wrapped_status :
    "@queryParam".toList.head? = some '@' ∧
      wrapped.Wraps "@queryParam".toList statusText.toList ∧
      Override.ofComment wrapped.comment "@queryParam" = [Override.parse statusText] := by
  have mark : "@queryParam".toList.head? = some '@' := by decide +kernel
  have wraps : wrapped.Wraps "@queryParam".toList statusText.toList :=
    ⟨by decide +kernel, by decide +kernel, by decide +kernel, by decide +kernel, by decide +kernel⟩
  exact ⟨mark, wraps, Override.ofComment_wrapped mark wraps⟩

end Sample

end RouteDoc
