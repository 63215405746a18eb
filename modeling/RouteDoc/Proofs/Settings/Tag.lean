import RouteDoc.Proofs.Comment.BlockRoundTrip
import RouteDoc.Proofs.Comment.Wrapping
import RouteDoc.Settings.Basic

/-!
# Tags that can be set

A host may set the tag whose values describe parameters, and settings are refused unless the tag
begins with `@` and has more than that. A reader of comments takes the first word of a line for the
name of its tag, so what it asks of a name is that there is no blank in it. A tag that both agree on
can be used: a comment on one line gives it any text. A tag with a blank is let through and then
found in no comment.

## Main statements

* `DocBlock.parse_oneLine`: a comment on one line is one tag.
* `Override.ofComment_of_blank`: no comment has a tag with a blank in its name.
* `tag_usable_iff`: a tag that settings are accepted with can be used just if it holds no blank.
* `tag_usable_blank`: a tag that is accepted, with nothing but a blank behind the `@`.
-/

set_option autoImplicit false

namespace RouteDoc

open Text DocBlock

/-- The comment on one line that gives a tag a text. -/
def oneLine (tag text : String) : String :=
  "/** " ++ tag ++ " " ++ text ++ " */"

/-- The tag of settings that are accepted was tested. -/
theorem Settings.isTag_of_validate {s : Settings} (valid : s.validate = .ok ()) :
    isTag s.tag = true := by
  unfold validate at valid
  split at valid
  next => cases valid
  next =>
    split at valid
    next => cases valid
    next isTag => simpa using isTag

/-- A tag that is accepted has the mark in front. -/
theorem Settings.mark_of_isTag {tag : String} (h : isTag tag = true) :
    tag.toList.head? = some '@' := by
  unfold isTag at h
  split at h
  next c rest text => rw [text, List.head?_cons]
  next => cases h

/-- A comment on one line is one tag, and its value has the words of the text. -/
theorem DocBlock.parse_oneLine {tag text : String} (mark : tag.toList.head? = some '@')
    (ink : ∀ c ∈ tag.toList, isBlank c = false) (one : '\n' ∉ text.toList) :
    ∃ value, parse (oneLine tag text) = ⟨"", [⟨tag, String.ofList value⟩]⟩ ∧
      words value = words text.toList := by
  have word : IsWordText tag.toList := by
    refine ⟨fun none => ?_, ink⟩
    rw [none] at mark
    cases mark
  let line := ' ' :: (tag.toList ++ ' ' :: (text.toList ++ [' ']))
  have whole : (oneLine tag text).toList = "/**".toList ++ line ++ "*/".toList := by
    simp [oneLine, line]
  have single : '\n' ∉ line := by
    have inTag : '\n' ∉ tag.toList := fun lf => absurd (ink _ lf) (by decide)
    simp [line, inTag, one]
  have shown : words line = tag.toList :: words text.toList := by
    rw [words_cons_blank isBlank_space, words_append_blank isBlank_space, words_of_isWordText word,
      words_append_blanks _ (by decide), List.singleton_append]
  have first : (trim line).head? = some '@' := by
    rw [← head?_first_word (trimmed_trim line).head, words_trim, shown, List.head?_cons,
      Option.bind_some, mark]
  -- The line begins with the tag, so it has no gutter that could be taken off.
  have stripped : stripGutter line = trim line :=
    stripGutter_of_head_ne (by rw [first]; decide)
  have filled : (trim line).isEmpty = false := by
    cases text : trim line with
    | nil => rw [text] at first; cases first
    | cons c rest => rfl
  have read : contentLines (oneLine tag text).toList = [trim line] := by
    rw [contentLines, whole, body_comment, lines_of_not_mem single, List.map_singleton, stripped,
      List.filter_cons_of_pos (by rw [filled]; rfl), List.filter_nil]
  have content : ∀ l ∈ [trim line], IsContent l := fun l mem =>
    isContent_of_mem_contentLines (read ▸ mem)
  have words_eq : [trim line].flatMap words = tag.toList :: words text.toList := by
    rw [List.flatMap_singleton, words_trim, shown]
  obtain ⟨value, tags, same⟩ :=
    readLines_of_words content mark words_eq fun l mem => absurd mem List.not_mem_nil
  refine ⟨value, ?_, same⟩
  rw [parse_eq, read, tags, String.ofList_toList]
  rfl

/-- A tag without blanks is found in a comment, and its record is read. -/
theorem Override.ofComment_oneLine {tag text : String} (mark : tag.toList.head? = some '@')
    (ink : ∀ c ∈ tag.toList, isBlank c = false) (one : '\n' ∉ text.toList) :
    ofComment (oneLine tag text) tag = [parse text] := by
  obtain ⟨value, block, same⟩ := DocBlock.parse_oneLine mark ink one
  have record : parse (String.ofList value) = parse text :=
    parse_congr (by rw [String.toList_ofList, same])
  rw [ofComment, block, ofBlock]
  simp [valuesOf, record]

/-- A tag with a blank is never found: the name of a tag ends at the first blank. -/
theorem Override.ofComment_of_blank {tag : String} (blank : ∃ c ∈ tag.toList, isBlank c = true)
    (raw : String) : ofComment raw tag = [] := by
  obtain ⟨c, mem, isBlank⟩ := blank
  have none_named : (DocBlock.parse raw).tags.filter (·.name == tag) = [] := by
    refine List.filter_eq_nil_iff.mpr fun t inBlock named => ?_
    have ink := ((canonical_parse raw).tags t inBlock).ink c (beq_iff_eq.mp named ▸ mem)
    rw [ink] at isBlank
    cases isBlank
  rw [ofComment, ofBlock, valuesOf, none_named]
  rfl

/-- **When a tag can be used.** Let settings be accepted. That every comment on one line gives their
tag its text, and holds the record of the text and no other, is so just if there is no blank in the
tag; and just then any comment at all has a tag of that name. With a blank in the tag, no comment
holds a record. -/
theorem tag_usable_iff {s : Settings} (valid : s.validate = .ok ()) :
    ((∀ text, '\n' ∉ text.toList →
        Override.ofComment (oneLine s.tag text) s.tag = [Override.parse text]) ↔
      ∀ c ∈ s.tag.toList, isBlank c = false) ∧
    ((∃ raw, ∃ t ∈ (DocBlock.parse raw).tags, t.name = s.tag) ↔
      ∀ c ∈ s.tag.toList, isBlank c = false) ∧
    ((∃ c ∈ s.tag.toList, isBlank c = true) → ∀ raw, Override.ofComment raw s.tag = []) := by
  have mark := Settings.mark_of_isTag (Settings.isTag_of_validate valid)
  refine ⟨⟨fun usable c mem => ?_, fun ink text one => Override.ofComment_oneLine mark ink one⟩,
    ⟨?_, fun ink => ?_⟩, Override.ofComment_of_blank⟩
  · refine Bool.eq_false_iff.mpr fun blank => ?_
    have empty := Override.ofComment_of_blank ⟨c, mem, blank⟩ (oneLine s.tag "")
    rw [usable "" (by decide)] at empty
    cases empty
  · rintro ⟨raw, t, inBlock, named⟩
    exact named ▸ ((canonical_parse raw).tags t inBlock).ink
  · have one : '\n' ∉ "".toList := by decide
    obtain ⟨value, block, -⟩ := DocBlock.parse_oneLine mark ink one
    have inBlock : ⟨s.tag, String.ofList value⟩ ∈ (DocBlock.parse (oneLine s.tag "")).tags := by
      rw [block]
      exact List.mem_singleton_self _
    exact ⟨oneLine s.tag "", _, inBlock, rfl⟩

namespace Sample

/-- Settings may take the name of an annotation for their tag. -/
def annotationSettings : Settings :=
  { tag := "@example" }

theorem tag_usable_iff_of_annotation :
    annotationSettings.validate = .ok () ∧
      Override.ofComment "/** @example string status @enum draft */" "@example" =
        [.parse "string status @enum draft"] := by
  have valid : annotationSettings.validate = .ok () := by decide +kernel
  have ink : ∀ c ∈ annotationSettings.tag.toList, isBlank c = false := by decide +kernel
  exact ⟨valid, (tag_usable_iff valid).1.mpr ink "string status @enum draft" (by decide)⟩

/-- Settings whose tag is an `@` with a blank behind it. -/
def blankTagSettings : Settings :=
  { tag := "@ " }

/-- The settings are accepted, and the comment has no record. -/
theorem tag_usable_blank :
    blankTagSettings.validate = .ok () ∧
      Override.ofComment (oneLine blankTagSettings.tag "string status Text")
        blankTagSettings.tag = [] :=
  ⟨by decide +kernel, by decide +kernel⟩

end Sample

end RouteDoc
