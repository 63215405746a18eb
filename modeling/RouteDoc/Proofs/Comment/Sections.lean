import RouteDoc.Proofs.Comment.Wrapping

/-!
# Where the words of a comment go

The lines of a comment fall into a summary and one section for each tag: the line that opens the tag
and the lines that go on with it. Which lines open a tag can be told without reading the comment
from the top. Of the lines that begin with `@` the first one does, whatever it says, and each of the
others unless its first word is one of the continuing annotations.

## Main statements

* `exists_sections`: below an open tag, the lines that go on with it and the sections behind them.
* `parse_placed`: reading loses, duplicates and moves nothing; every section is one tag, whose name
  and value have the words of the section.
-/

set_option autoImplicit false

namespace RouteDoc

open Text DocBlock

/-- The name of a tag, and behind it the words of its value. -/
def DocTag.words (t : DocTag) : List (List Char) :=
  t.name.toList :: Text.words t.value.toList

namespace DocBlock

/-- Whether a line begins with the mark of a tag. -/
def isMarked (l : List Char) : Bool :=
  l.head? == some '@'

/-- Whether the whole first word of a line is one of the annotations that continue a tag. -/
def annotates (l : List Char) : Bool :=
  continuing.any fun a => (words l).head? == some a

/-- The lines that open a tag: the first of those that begin with `@`, and the others unless they are
annotations. -/
def openingLines (ls : List (List Char)) : List (List Char) :=
  match ls.filter isMarked with
  | [] => []
  | l :: below => l :: below.filter (! annotates ·)

/-- The lines of a tag: the one that opens it, and those that go on with it. -/
structure Section where
  opening : List Char
  below : List (List Char)

/-- All lines of a tag, in order. -/
def Section.lines (s : Section) : List (List Char) :=
  s.opening :: s.below

/-- A block has the words of these lines, each in its place. -/
structure Placed (ls : List (List Char)) (b : DocBlock) : Prop where
  /-- The words of the summary, and then the name and the words of each tag, are those of the lines. -/
  words : Text.words b.summary.toList ++ b.tags.flatMap DocTag.words = ls.flatMap Text.words
  /-- There is one tag for each line that opens one, and its first word is the name. -/
  names : (b.tags.map fun t => some t.name.toList) =
    (openingLines ls).map fun l => (Text.words l).head?
  /-- The summary is the lines above the first of these. -/
  summary : b.summary = joinLines (ls.takeWhile (! isMarked ·))
  /-- No word leaves its section: the lines below the summary are sections, each with the line that
  opens it in front, and its tag has the words of these lines. -/
  sections : ∃ sections : List Section,
    ls.dropWhile (! isMarked ·) = sections.flatMap Section.lines ∧
    sections.map Section.opening = openingLines ls ∧
    b.tags.map DocTag.words = sections.map fun s => s.lines.flatMap Text.words

/-- Below the first tag a line with a mark opens a tag unless it is an annotation. -/
theorem opens_true_eq {l : List Char} (content : IsContent l) :
    opens true l = (isMarked l && !annotates l) := by
  have same : continuing.any (beginsWith l) = annotates l := by
    rw [Bool.eq_iff_iff, annotates, List.any_eq_true, List.any_eq_true]
    refine exists_congr fun a => and_congr_right fun mem => ?_
    rw [beginsWith_iff content.head (isWordText_of_mem_continuing mem), beq_iff_eq]
  rw [opens, Bool.true_and, same]
  rfl

/-- Below the first line that begins with `@`, the lines that open a tag are those that are found to
open one while a tag is open. -/
theorem openingLines_cons {l : List Char} (mark : isMarked l = true) {ls : List (List Char)}
    (content : ∀ k ∈ ls, IsContent k) : openingLines (l :: ls) = l :: ls.filter (opens true) := by
  rw [openingLines, List.filter_cons_of_pos mark]
  simp only [List.filter_filter]
  refine congrArg (l :: ·) (List.filter_congr fun k mem => ?_)
  rw [opens_true_eq (content k mem), Bool.and_comm]

/-- The words of a tag are its name and those of its lines. -/
theorem words_close (t : Open) :
    t.close.words = t.name :: t.linesRev.reverse.flatMap words := by
  rw [DocTag.words, Open.close, String.toList_ofList, joinLines, String.toList_ofList,
    words_join_lines]

/-- A tag that a line opens has the words of that line. -/
theorem words_open {l : List Char} (content : IsContent l) (below : List (List Char)) :
    (openTag l).name :: ((openTag l).linesRev.reverse ++ below).flatMap words =
      (l :: below).flatMap words := by
  rw [List.flatMap_append, words_openTag, List.flatMap_cons,
    words_cutAtBlank content.head content.filled]
  rfl

/-- **Below an open tag** there are lines that go on with it, and then sections, one for each line
that opens a tag. -/
theorem exists_sections (t : Open) {ls : List (List Char)} (content : ∀ l ∈ ls, IsContent l) :
    ∃ (below : List (List Char)) (sections : List Section),
      ls = below ++ sections.flatMap Section.lines ∧
      sections.map Section.opening = ls.filter (opens true) ∧
      (readTags t ls).map DocTag.words =
        (t.name :: (t.linesRev.reverse ++ below).flatMap words) ::
          sections.map fun s => s.lines.flatMap words := by
  fun_induction readTags t ls with
  | case1 t => exact ⟨[], [], rfl, rfl, by simp [words_close]⟩
  | case2 t l ls opened ih =>
    obtain ⟨first, rest⟩ := List.forall_mem_cons.mp content
    obtain ⟨below, sections, cut, openings, tags⟩ := ih rest
    refine ⟨[], ⟨l, below⟩ :: sections, ?_, ?_, ?_⟩
    · rw [List.nil_append, List.flatMap_cons, Section.lines, List.cons_append, ← cut]
    · rw [List.map_cons, openings, List.filter_cons_of_pos opened]
    · rw [List.map_cons, tags, words_close, words_open first, List.append_nil, List.map_cons]
      rfl
  | case3 t l ls same ih =>
    obtain ⟨below, sections, cut, openings, tags⟩ := ih (List.forall_mem_cons.mp content).2
    refine ⟨l :: below, sections, ?_, ?_, ?_⟩
    · rw [List.cons_append, ← cut]
    · rw [openings, List.filter_cons_of_neg same]
    · rw [tags, Open.addLine, List.reverse_cons, List.append_assoc, List.singleton_append]

/-- The lines above the first that begins with `@` are the summary. -/
theorem readLines_eq (ls : List (List Char)) :
    readLines ls = (ls.takeWhile (! isMarked ·), match ls.dropWhile (! isMarked ·) with
      | [] => []
      | l :: below => readTags (openTag l) below) := by
  fun_induction readLines ls with
  | case1 => rfl
  | case2 l ls opened =>
    have mark : isMarked l = true := (opens_false l).symm.trans opened
    simp [mark]
  | case3 l ls same summary tags read ih =>
    have unmarked : isMarked l = false := (opens_false l).symm.trans (Bool.eq_false_iff.mpr same)
    rw [read] at ih
    obtain ⟨rfl, rfl⟩ := Prod.mk.inj ih
    simp [unmarked]

/-- The lines without a mark in front open nothing. -/
theorem openingLines_dropWhile (ls : List (List Char)) :
    openingLines (ls.dropWhile (! isMarked ·)) = openingLines ls := by
  have same : (ls.dropWhile (! isMarked ·)).filter isMarked = ls.filter isMarked := by
    induction ls with
    | nil => rfl
    | cons l ls ih => cases mark : isMarked l <;> simp [mark, ih]
  rw [openingLines, openingLines, same]

/-- The lines below the summary are sections, one for each line that opens a tag. -/
theorem exists_sections_readLines {ls : List (List Char)} (content : ∀ l ∈ ls, IsContent l) :
    ∃ sections : List Section,
      ls.dropWhile (! isMarked ·) = sections.flatMap Section.lines ∧
      sections.map Section.opening = openingLines ls ∧
      (readLines ls).2.map DocTag.words = sections.map fun s => s.lines.flatMap words := by
  have inside : ∀ l ∈ ls.dropWhile (! isMarked ·), IsContent l := fun l mem =>
    content l ((List.dropWhile_sublist _).subset mem)
  have stop := List.head?_dropWhile_not (! isMarked ·) ls
  rw [readLines_eq, ← openingLines_dropWhile]
  cases lines : ls.dropWhile (! isMarked ·) with
  | nil => exact ⟨[], rfl, rfl, rfl⟩
  | cons l rest =>
    rw [lines] at inside stop
    obtain ⟨first, behind⟩ := List.forall_mem_cons.mp inside
    have mark : isMarked l = true := by simpa using stop
    obtain ⟨below, sections, cut, openings, tags⟩ := exists_sections (openTag l) behind
    refine ⟨⟨l, below⟩ :: sections, ?_, ?_, ?_⟩
    · rw [List.flatMap_cons, Section.lines, List.cons_append, ← cut]
    · rw [List.map_cons, openings, openingLines_cons mark behind]
    · rw [tags, words_open first, List.map_cons]
      rfl

/-- **Reading loses, duplicates and moves nothing.** The words of the lines that a comment says
something in are those of the summary, followed for each tag by its name and its words. There is one
tag for each line that opens one, named by its first word; the summary is the lines above them all,
and each tag has the words of the lines from its own down to the next that opens one. -/
theorem parse_placed (raw : String) : Placed (contentLines raw.toList) (parse raw) := by
  have content : ∀ l ∈ contentLines raw.toList, IsContent l :=
    fun l mem => isContent_of_mem_contentLines mem
  rw [parse_eq]
  generalize contentLines raw.toList = ls at content
  have summary : (readLines ls).1 = ls.takeWhile (! isMarked ·) := by rw [readLines_eq]
  obtain ⟨sections, cut, openings, tags⟩ := exists_sections_readLines content
  refine ⟨?_, ?_, ?_, sections, cut, openings, tags⟩
  · have below : (readLines ls).2.flatMap DocTag.words =
        (ls.dropWhile (! isMarked ·)).flatMap words := by
      rw [List.flatMap_def, tags, cut, ← List.flatMap_def, List.flatMap_assoc]
    show words (joinLines (readLines ls).1).toList ++ _ = _
    rw [below, joinLines, String.toList_ofList, words_join_lines, summary, ← List.flatMap_append,
      List.takeWhile_append_dropWhile]
  · have first : ∀ s ∈ sections, (s.lines.flatMap words).head? = (words s.opening).head? := by
      intro s mem
      have inside : s.opening ∈ ls.dropWhile (! isMarked ·) :=
        cut ▸ List.mem_flatMap.mpr ⟨s, mem, List.mem_cons_self⟩
      have said := content _ ((List.dropWhile_sublist _).subset inside)
      rw [Section.lines, List.flatMap_cons, words_cutAtBlank said.head said.filled]
      rfl
    calc (readLines ls).2.map (fun t => some t.name.toList)
        = ((readLines ls).2.map DocTag.words).map List.head? := by rw [List.map_map]; rfl
      _ = sections.map fun s => (words s.opening).head? := by
          rw [tags, List.map_map]
          exact List.map_congr_left first
      _ = (openingLines ls).map fun l => (words l).head? := by rw [← openings, List.map_map]; rfl
  · show joinLines (readLines ls).1 = _
    rw [summary]

end DocBlock

end RouteDoc
