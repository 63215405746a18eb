import RouteDoc.Proofs.Comment.BlockLines

/-!
# Writing a doc block back

A block that was read has a form of its own: its lines are trimmed and not empty, a tag has a name
without blanks, and the lines that could be taken for another tag are not among those of a value. In
this form a block can be written as a comment, one line behind a gutter each, and reading the
comment gives the block back.

## Main statements

* `canonical_parse`: whatever is read is in canonical form.
* `contentLines_render`: the lines of a written block are those of its summary and of its tags.
* `parse_roundTrip`: the blocks that reading gives back are those in canonical form, so that one
  more round of writing and reading changes nothing.
-/

set_option autoImplicit false

namespace RouteDoc

open Text DocBlock

/-! ## Canonical blocks -/

/-- The lines of a text; the empty text has none. -/
def DocBlock.textLines (s : String) : List (List Char) :=
  if s.isEmpty then [] else lines s.toList

/-- A tag in canonical form. -/
structure DocTag.Canonical (t : DocTag) : Prop where
  /-- The name begins with `@`. -/
  mark : t.name.toList.head? = some '@'
  /-- The name holds no blank. -/
  ink : ∀ c ∈ t.name.toList, isBlank c = false
  /-- The lines of the value say something. -/
  content : ∀ l ∈ textLines t.value, IsContent l
  /-- All of them but the first go on with the tag. -/
  continues : ∀ l ∈ (textLines t.value).tail, Continues l

instance (t : DocTag) : Decidable t.Canonical :=
  decidable_of_iff (t.name.toList.head? = some '@' ∧ (∀ c ∈ t.name.toList, isBlank c = false) ∧
      (∀ l ∈ textLines t.value, IsContent l) ∧ ∀ l ∈ (textLines t.value).tail, Continues l)
    ⟨fun h => ⟨h.1, h.2.1, h.2.2.1, h.2.2.2⟩, fun h => ⟨h.mark, h.ink, h.content, h.continues⟩⟩

/-- A block in canonical form. -/
structure DocBlock.Canonical (b : DocBlock) : Prop where
  /-- The lines of the summary say something, and none of them begins with `@`. -/
  summary : ∀ l ∈ textLines b.summary, IsContent l ∧ l.head? ≠ some '@'
  /-- The tags are in canonical form. -/
  tags : ∀ t ∈ b.tags, t.Canonical
  /-- Below the first tag no annotation stands as a tag of its own. -/
  later : ∀ t ∈ b.tags.tail, t.name.toList ∉ continuing

instance (b : DocBlock) : Decidable b.Canonical :=
  decidable_of_iff ((∀ l ∈ textLines b.summary, IsContent l ∧ l.head? ≠ some '@') ∧
      (∀ t ∈ b.tags, t.Canonical) ∧ ∀ t ∈ b.tags.tail, t.name.toList ∉ continuing)
    ⟨fun h => ⟨h.1, h.2.1, h.2.2⟩, fun h => ⟨h.summary, h.tags, h.later⟩⟩

namespace DocBlock

/-- A text is joined from its lines. -/
theorem joinLines_textLines (s : String) : joinLines (textLines s) = s := by
  rw [joinLines, textLines]
  split
  next none =>
    rw [String.isEmpty_iff.mp none]
    rfl
  next => rw [join_lines, String.ofList_toList]

/-- Lines that say something are told apart when they are joined. -/
theorem textLines_joinLines {ls : List (List Char)} (content : ∀ l ∈ ls, IsContent l) :
    textLines (joinLines ls) = ls := by
  cases ls with
  | nil => rfl
  | cons l ls =>
    have filled : ['\n'].intercalate (l :: ls) ≠ [] := by
      obtain ⟨c, l', rfl⟩ := List.exists_cons_of_ne_nil (content l List.mem_cons_self).filled
      cases ls with
      | nil => simp
      | cons k ls => simp [List.intercalate_cons_cons]
    rw [textLines, joinLines, if_neg (by simpa using filled), String.toList_ofList,
      lines_join (fun l mem => (content l mem).one) (List.cons_ne_nil l ls)]

/-! ## What is read is canonical -/

/-- What an open tag keeps to while lines are added to it. -/
structure Open.Sound (t : Open) : Prop where
  /-- The name begins with `@`. -/
  mark : t.name.head? = some '@'
  /-- The name holds no blank. -/
  ink : ∀ c ∈ t.name, isBlank c = false
  /-- The lines say something. -/
  content : ∀ l ∈ t.linesRev, IsContent l
  /-- All of them but the first go on with the tag. -/
  continues : ∀ l ∈ t.linesRev.reverse.tail, Continues l

/-- A tag that was kept sound is canonical when it is closed. -/
theorem Open.Sound.close {t : Open} (h : t.Sound) : t.close.Canonical := by
  have lines : textLines t.close.value = t.linesRev.reverse :=
    textLines_joinLines fun l mem => h.content l (List.mem_reverse.mp mem)
  refine ⟨?_, ?_, ?_, ?_⟩
  · rw [Open.close, String.toList_ofList]
    exact h.mark
  · rw [Open.close, String.toList_ofList]
    exact h.ink
  · rw [lines]
    exact fun l mem => h.content l (List.mem_reverse.mp mem)
  · rw [lines]
    exact h.continues

/-- A line that opens no tag may be added. -/
theorem Open.Sound.addLine {t : Open} (h : t.Sound) {l : List Char} (content : IsContent l)
    (go : opens true l = false) : (t.addLine l).Sound where
  mark := h.mark
  ink := h.ink
  content := List.forall_mem_cons.mpr ⟨content, h.content⟩
  continues k mem := by
    rw [Open.addLine, List.reverse_cons] at mem
    cases before : t.linesRev.reverse with
    | nil => rw [before] at mem; cases mem
    | cons first others =>
      rw [before, List.cons_append, List.tail_cons] at mem
      obtain inside | last := List.mem_append.mp mem
      · exact h.continues k (by rwa [before])
      · rw [List.mem_singleton.mp last]
        exact (opens_true_eq_false_iff content.head).mp go

/-- A line with a mark opens a sound tag. -/
theorem sound_openTag {l : List Char} (content : IsContent l) (mark : l.head? = some '@') :
    (openTag l).Sound := by
  refine ⟨?_, fun c mem => ?_, fun k mem => ?_, fun k mem => ?_⟩
  · show (l.takeWhile (! isBlank ·)).head? = some '@'
    obtain ⟨c, l, rfl⟩ := List.exists_cons_of_ne_nil content.filled
    rw [List.takeWhile_cons_of_pos (by simp [content.head c rfl])]
    exact mark
  · simpa using List.mem_takeWhile_imp mem
  · rw [linesRev_openTag] at mem
    split at mem
    next => cases mem
    next filled =>
      rw [List.mem_singleton.mp mem]
      refine ⟨trimmed_trim _, by simpa using filled, fun lf => content.one ?_⟩
      exact (List.dropWhile_sublist _).subset (List.mem_of_mem_drop (mem_of_mem_trim lf))
  · rw [linesRev_openTag] at mem
    split at mem
    next => cases mem
    next => cases mem

/-- Every tag that is read is canonical. -/
theorem canonical_readTags {t : Open} (h : t.Sound) {ls : List (List Char)}
    (content : ∀ l ∈ ls, IsContent l) : ∀ tag ∈ readTags t ls, tag.Canonical := by
  -- `Sound` is what carries over from line to line: a line that opens a tag sets it up anew, and any
  -- other keeps it.
  fun_induction readTags t ls with
  | case1 t => exact fun tag mem => List.mem_singleton.mp mem ▸ h.close
  | case2 t l ls opened ih =>
    obtain ⟨first, behind⟩ := List.forall_mem_cons.mp content
    have mark : l.head? = some '@' := by
      rw [opens, Bool.and_eq_true, beq_iff_eq] at opened
      exact opened.1
    exact List.forall_mem_cons.mpr ⟨h.close, ih (sound_openTag first mark) behind⟩
  | case3 t l ls same ih =>
    obtain ⟨first, behind⟩ := List.forall_mem_cons.mp content
    exact ih (h.addLine first (by simpa using same)) behind

/-- The name of a tag that a line opens below another one is no annotation. -/
theorem name_openTag_not_mem {l : List Char} (content : IsContent l)
    (opened : opens true l = true) :
    (openTag l).name ∉ continuing := by
  intro mem
  have go : Continues l := fun _ => ⟨_, mem, by
    rw [words_cutAtBlank content.head content.filled]
    rfl⟩
  rw [(opens_true_eq_false_iff content.head).mpr go] at opened
  cases opened

/-- Where the open tag has a name of its own, so have those behind it. -/
theorem names_readTags {t : Open} (own : t.name ∉ continuing) {ls : List (List Char)}
    (content : ∀ l ∈ ls, IsContent l) : ∀ tag ∈ readTags t ls, tag.name.toList ∉ continuing := by
  fun_induction readTags t ls with
  | case1 t =>
    intro tag mem
    rw [List.mem_singleton.mp mem, Open.close, String.toList_ofList]
    exact own
  | case2 t l ls opened ih =>
    obtain ⟨first, behind⟩ := List.forall_mem_cons.mp content
    refine List.forall_mem_cons.mpr ⟨?_, ih (name_openTag_not_mem first opened) behind⟩
    rw [Open.close, String.toList_ofList]
    exact own
  | case3 t l ls same ih => exact ih own (List.forall_mem_cons.mp content).2

/-- The first tag may be an annotation, since none was open above it; no other is. -/
theorem names_tail_readTags (t : Open) {ls : List (List Char)} (content : ∀ l ∈ ls, IsContent l) :
    ∀ tag ∈ (readTags t ls).tail, tag.name.toList ∉ continuing := by
  fun_induction readTags t ls with
  | case1 t => exact fun tag mem => absurd mem List.not_mem_nil
  | case2 t l ls opened ih =>
    obtain ⟨first, behind⟩ := List.forall_mem_cons.mp content
    exact names_readTags (name_openTag_not_mem first opened) behind
  | case3 t l ls same ih => exact ih (List.forall_mem_cons.mp content).2

/-- Lines that say something are read into a summary without marks and into canonical tags. -/
theorem canonical_readLines {ls : List (List Char)} (content : ∀ l ∈ ls, IsContent l) :
    (∀ l ∈ (readLines ls).1, IsContent l ∧ l.head? ≠ some '@') ∧
      (∀ t ∈ (readLines ls).2, t.Canonical) ∧
      ∀ t ∈ (readLines ls).2.tail, t.name.toList ∉ continuing := by
  fun_induction readLines ls with
  | case1 => simp
  | case2 l ls opened =>
    obtain ⟨first, behind⟩ := List.forall_mem_cons.mp content
    rw [opens_false, beq_iff_eq] at opened
    exact ⟨by simp, canonical_readTags (sound_openTag first opened) behind,
      names_tail_readTags _ behind⟩
  | case3 l ls same summary tags read ih =>
    obtain ⟨first, behind⟩ := List.forall_mem_cons.mp content
    obtain ⟨lines, rest⟩ := ih behind
    rw [opens_false, beq_iff_eq] at same
    rw [read] at lines rest
    exact ⟨List.forall_mem_cons.mpr ⟨⟨first, same⟩, lines⟩, rest⟩

/-- **Whatever is read is in canonical form.** -/
theorem canonical_parse (raw : String) : (parse raw).Canonical := by
  have content : ∀ l ∈ contentLines raw.toList, IsContent l :=
    fun l mem => isContent_of_mem_contentLines mem
  have canonical := canonical_readLines content
  rw [parse_eq]
  generalize readLines (contentLines raw.toList) = read at canonical
  obtain ⟨summary, tags, later⟩ := canonical
  refine ⟨?_, tags, later⟩
  rw [textLines_joinLines fun l mem => (summary l mem).1]
  exact summary

/-! ## What is written is read -/

/-- The line that opens a tag, as it is written. -/
def firstLine (t : DocTag) : List Char :=
  match textLines t.value with
  | [] => t.name.toList
  | l :: _ => t.name.toList ++ ' ' :: l

end DocBlock

namespace DocTag.Canonical

variable {t : DocTag}

theorem word (h : t.Canonical) : IsWordText t.name.toList := by
  refine ⟨?_, h.ink⟩
  intro none
  have mark := h.mark
  rw [none] at mark
  cases mark

/-- A tag is written as its first line and the other lines of its value. -/
theorem render_eq (h : t.Canonical) :
    DocBlock.DocTag.render t = firstLine t :: (textLines t.value).tail := by
  have content := h.content
  rw [DocBlock.DocTag.render, firstLine]
  rw [textLines] at content ⊢
  split at content
  next none =>
    rw [if_pos none, String.isEmpty_iff.mp none]
    rfl
  next some =>
    rw [if_neg some]
    cases cut : lines t.value.toList with
    | nil => exact absurd cut (lines_ne_nil _)
    | cons l ls =>
      have filled := (content l (by rw [cut]; exact List.mem_cons_self)).filled
      simp [filled]

/-- The first line says something, at least the name. -/
theorem isContent_firstLine (h : t.Canonical) : IsContent (firstLine t) := by
  have one : '\n' ∉ t.name.toList := fun lf => by
    have ink := h.ink '\n' lf
    revert ink
    decide
  have named : Trimmed t.name.toList := ⟨fun c mem => h.ink c (List.mem_of_head? mem),
    fun c mem => h.ink c (List.mem_of_getLast? mem)⟩
  have content := h.content
  rw [firstLine]
  cases lines : textLines t.value with
  | nil => exact ⟨named, h.word.ne_nil, one⟩
  | cons l ls =>
    have first := content l (by rw [lines]; exact List.mem_cons_self)
    refine ⟨⟨fun c mem => ?_, fun c mem => ?_⟩, by simp, ?_⟩
    · rw [List.head?_append_of_ne_nil _ h.word.ne_nil] at mem
      exact named.head c mem
    · rw [List.getLast?_append_of_ne_nil _ (List.cons_ne_nil _ _),
        List.getLast?_cons_of_ne_nil first.filled] at mem
      exact first.last c mem
    · simp [one, first.one]

theorem openTag_firstLine (h : t.Canonical) :
    openTag (firstLine t) = ⟨t.name.toList, (textLines t.value).take 1⟩ := by
  have content := h.content
  rw [firstLine]
  cases lines : textLines t.value with
  | nil =>
    simp only [openTag, cutAtBlank_of_ink h.ink]
    rfl
  | cons l ls =>
    have first := content l (by rw [lines]; exact List.mem_cons_self)
    simp only [openTag, cutAtBlank_append h.ink isBlank_space, trim_eq_self_iff.mpr first.toTrimmed]
    simp [first.filled]

theorem head?_firstLine (h : t.Canonical) : (firstLine t).head? = some '@' := by
  rw [firstLine]
  split
  · exact h.mark
  · rw [List.head?_append_of_ne_nil _ h.word.ne_nil]
    exact h.mark

/-- The first line of a tag with a name of its own opens a tag. -/
theorem opens_firstLine (h : t.Canonical) (own : t.name.toList ∉ continuing) :
    opens true (firstLine t) = true := by
  have content := h.isContent_firstLine
  have first : (words (firstLine t)).head? = some t.name.toList := by
    rw [words_cutAtBlank content.head content.filled]
    exact congrArg (fun o : Open => some o.name) h.openTag_firstLine
  by_contra same
  obtain ⟨a, mem, named⟩ :=
    (opens_true_eq_false_iff content.head).mp (Bool.eq_false_iff.mpr same) h.head?_firstLine
  rw [first] at named
  cases named
  exact own mem

/-- The lines of a written tag below its first go on with it. -/
theorem readTags_tag (h : t.Canonical) (rest : List (List Char)) :
    readTags (openTag (firstLine t)) ((textLines t.value).tail ++ rest) =
      readTags ⟨t.name.toList, (textLines t.value).reverse⟩ rest := by
  have go : ∀ l ∈ (textLines t.value).tail, opens true l = false := fun l mem =>
    (opens_true_eq_false_iff (h.content l (List.mem_of_mem_tail mem)).head).mpr (h.continues l mem)
  rw [readTags_append go, h.openTag_firstLine]
  cases textLines t.value with
  | nil => rfl
  | cons l ls => simp

end DocTag.Canonical

namespace DocBlock

theorem close_lines (t : DocTag) :
    (⟨t.name.toList, (textLines t.value).reverse⟩ : Open).close = t := by
  rw [Open.close, List.reverse_reverse, joinLines_textLines, String.ofList_toList]

/-- Tags with names of their own are read one after the other. -/
theorem readTags_tags {ts : List DocTag} (canonical : ∀ t ∈ ts, t.Canonical)
    (own : ∀ t ∈ ts, t.name.toList ∉ continuing) (above : Open) :
    readTags above (ts.flatMap DocTag.render) = above.close :: ts := by
  induction ts generalizing above with
  | nil => rfl
  | cons t ts ih =>
    obtain ⟨first, behind⟩ := List.forall_mem_cons.mp canonical
    obtain ⟨named, named'⟩ := List.forall_mem_cons.mp own
    rw [List.flatMap_cons, first.render_eq, List.cons_append, readTags,
      first.opens_firstLine named, if_pos rfl, first.readTags_tag, ih behind named', close_lines]

/-- The lines of a canonical block are read as the block. -/
theorem readLines_block {b : DocBlock} (h : b.Canonical) :
    readLines (textLines b.summary ++ b.tags.flatMap DocTag.render) =
      (textLines b.summary, b.tags) := by
  have tags : readLines (b.tags.flatMap DocTag.render) = ([], b.tags) := by
    have canonical := h.tags
    have later := h.later
    generalize b.tags = ts at canonical later
    cases ts with
    | nil => rfl
    | cons t ts =>
      obtain ⟨first, behind⟩ := List.forall_mem_cons.mp canonical
      have opened : opens false (firstLine t) = true := by
        rw [opens_false, first.head?_firstLine]
        rfl
      rw [List.flatMap_cons, first.render_eq, List.cons_append, readLines, opened, if_pos rfl,
        first.readTags_tag, readTags_tags behind later, close_lines]
  have summary : ∀ l ∈ textLines b.summary, opens false l = false := fun l mem => by
    rw [opens_false]
    simpa using (h.summary l mem).2
  -- The tags are read from where the summary ends, so the induction on its lines starts with them.
  generalize textLines b.summary = ls at summary
  induction ls with
  | nil => exact tags
  | cons l ls ih =>
    obtain ⟨first, behind⟩ := List.forall_mem_cons.mp summary
    rw [List.cons_append, readLines, first, if_neg (by simp), ih behind]

/-- A line that says something, read as it is written. -/
theorem stripGutter_written {l : List Char} (content : IsContent l) :
    stripGutter (" * ".toList ++ l) = l := by
  have behind : trim (' ' :: l) = l := by
    simpa using content.trim_eq [' '] [] (by simp [isBlank_space]) (by simp)
  have gutter : stripGutter ([' '] ++ '*' :: ' ' :: l) = trim (' ' :: l) :=
    stripGutter_gutter (by simp [isBlank_space])
  exact gutter.trans behind

/-- A block is written line by line, each behind a gutter. -/
theorem toList_render (b : DocBlock) :
    b.render.toList = "/**\n".toList ++
      ((textLines b.summary ++ b.tags.flatMap DocTag.render).flatMap
        fun l => " * ".toList ++ l ++ ['\n']) ++ " */".toList :=
  String.toList_ofList

/-- The lines of a block in canonical form are read as they were written. -/
theorem contentLines_render {b : DocBlock} (h : b.Canonical) :
    contentLines b.render.toList = textLines b.summary ++ b.tags.flatMap DocTag.render := by
  have content : ∀ l ∈ textLines b.summary ++ b.tags.flatMap DocTag.render, IsContent l := by
    intro l mem
    obtain mem | mem := List.mem_append.mp mem
    · exact (h.summary l mem).1
    · obtain ⟨t, inTags, mem⟩ := List.mem_flatMap.mp mem
      rw [(h.tags t inTags).render_eq] at mem
      obtain rfl | mem := List.mem_cons.mp mem
      · exact (h.tags t inTags).isContent_firstLine
      · exact (h.tags t inTags).content l (List.mem_of_mem_tail mem)
  rw [toList_render]
  generalize textLines b.summary ++ b.tags.flatMap DocTag.render = ls at content
  have text : "/**\n".toList ++ (ls.flatMap fun l => " * ".toList ++ l ++ ['\n']) ++ " */".toList =
      "/**".toList ++
        ([] ++ '\n' :: ((ls.map (" * ".toList ++ ·)).flatMap (· ++ ['\n']) ++ [' '])) ++
        "*/".toList := by
    rw [List.flatMap_map]
    simp
  have one : ∀ l ∈ ls.map (" * ".toList ++ ·), '\n' ∉ l :=
    List.forall_mem_map.mpr fun l mem => by simpa using (content l mem).one
  have stripped : (ls.map (" * ".toList ++ ·)).map stripGutter = ls := by
    rw [List.map_map]
    exact (List.map_congr_left fun l mem => stripGutter_written (content l mem)).trans
      (List.map_id ls)
  have kept : ls.filter (! List.isEmpty ·) = ls :=
    List.filter_eq_self.mpr fun l mem => by simpa using (content l mem).filled
  rw [contentLines, text, body_comment, lines_append_lf List.not_mem_nil,
    lines_flatMap one (by decide), List.map_cons, List.map_append, stripped]
  show (ls ++ [[]]).filter _ = ls
  rw [List.filter_append, kept]
  exact List.append_nil ls

/-- **The blocks in canonical form are those that reading gives back.** Whatever is read is in that
form, and a block is in that form exactly when reading it as it is written gives it back; so one
more round of writing and reading changes nothing. -/
theorem parse_roundTrip (raw : String) (b : DocBlock) :
    (parse raw).Canonical ∧ (b.Canonical ↔ parse b.render = b) ∧
      parse (parse raw).render = parse raw := by
  have back : ∀ {b : DocBlock}, b.Canonical → parse b.render = b := by
    intro b h
    rw [parse_eq, contentLines_render h, readLines_block h, joinLines_textLines]
  refine ⟨canonical_parse raw, ⟨back, fun h => ?_⟩, back (canonical_parse raw)⟩
  rw [← h]
  exact canonical_parse b.render

namespace Sample

/-- A block with an annotation in front of all tags, an empty value, and an annotation that goes on
with a tag. -/
def block : DocBlock where
  summary := "* Lists posts.\nFor admins"
  tags := [⟨"@example", ""⟩, ⟨"@queryParam", "string status\n@enum draft"⟩, ⟨"@return", "@json"⟩]

/-- The block is in canonical form, and it is read back. -/
theorem parse_roundTrip_block : block.Canonical ∧ parse block.render = block := by
  have canonical : block.Canonical := by decide +kernel
  exact ⟨canonical, (parse_roundTrip "" block).2.1.mp canonical⟩

end Sample

end DocBlock

end RouteDoc
