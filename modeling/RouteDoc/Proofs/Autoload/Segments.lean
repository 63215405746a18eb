import RouteDoc.Autoload
import RouteDoc.Proofs.Text.Words

/-!
# Segments of names

The name of a class is made of segments, and so is the namespace of a root. A class belongs to a
root when the namespace is a proper initial part of its name. The file of a class and the stem of a
root are texts, though: the segments of the one stand between slashes, and those of the other between
backslashes, with one more at the end or not.

## Main statements

* `splitOn_joined`, `joined_splitOn`: a name and its segments give each other.
* `fileFor_joined`: what is left of a name gives the file that its segments spell.
* `join_ne_join`: files whose paths differ by characters in front, other than slashes, are not one
  under any directories.
* `ClassRoot.Applies.joined_eq`, `ClassRoot.begins_cases`: what segments say of texts, and texts of
  segments.
-/

set_option autoImplicit false

namespace RouteDoc

open Text

namespace Autoload

/-! ## Segments -/

/-- A segment of a name: not empty, and without slashes of either kind in it. -/
structure IsSegment (s : List Char) : Prop where
  ne_nil : s ≠ []
  noBackslash : '\\' ∉ s
  noSlash : '/' ∉ s

instance (s : List Char) : Decidable (IsSegment s) :=
  decidable_of_iff (s ≠ [] ∧ '\\' ∉ s ∧ '/' ∉ s)
    ⟨fun ⟨ne, noBackslash, noSlash⟩ => ⟨ne, noBackslash, noSlash⟩,
      fun h => ⟨h.ne_nil, h.noBackslash, h.noSlash⟩⟩

/-- The text of a name: its segments with backslashes between them. -/
def joined (segs : List (List Char)) : List Char :=
  ['\\'].intercalate segs

/-- A class name with these segments. It may have backslashes in front. -/
structure Spells (className : String) (segs : List (List Char)) : Prop where
  /-- The segments stand behind any backslashes. -/
  text : ∃ k, className.toList = List.replicate k '\\' ++ joined segs
  filled : segs ≠ []
  segment : ∀ s ∈ segs, IsSegment s

/-- The file that segments spell. -/
def fileOf (segs : List (List Char)) : String :=
  String.ofList (['/'].intercalate segs) ++ ".php"

theorem joined_singleton (s : List Char) : joined [s] = s :=
  List.intercalate_singleton

theorem joined_cons_cons (s t : List Char) (segs : List (List Char)) :
    joined (s :: t :: segs) = s ++ '\\' :: joined (t :: segs) := by
  rw [joined, List.intercalate_cons_cons, List.append_assoc]
  rfl

/-- Between two lists of segments there is one more backslash. -/
theorem joined_append {a b : List (List Char)} (left : a ≠ []) (right : b ≠ []) :
    joined (a ++ b) = joined a ++ '\\' :: joined b := by
  induction a with
  | nil => exact absurd rfl left
  | cons s a ih =>
    cases a with
    | nil =>
      obtain ⟨t, b, rfl⟩ := List.exists_cons_of_ne_nil right
      rw [joined_singleton]
      exact joined_cons_cons s t b
    | cons t a =>
      have behind := ih (List.cons_ne_nil t a)
      rw [List.cons_append] at behind
      rw [List.cons_append, List.cons_append, joined_cons_cons, joined_cons_cons, behind,
        List.append_assoc, List.cons_append]

/-- The segments of a name are what stands between its backslashes. -/
theorem splitOn_joined {segs : List (List Char)} (filled : segs ≠ [])
    (segment : ∀ s ∈ segs, IsSegment s) : (joined segs).splitOn '\\' = segs :=
  List.splitOn_intercalate '\\' (fun s mem => (segment s mem).noBackslash) filled

/-- A name is joined from the segments into which it is split. -/
theorem joined_splitOn (s : List Char) : joined (s.splitOn '\\') = s :=
  List.intercalate_splitOn '\\'

/-- A name begins with a character of its first segment. -/
theorem exists_joined_eq_cons {segs : List (List Char)} (filled : segs ≠ [])
    (segment : ∀ s ∈ segs, IsSegment s) : ∃ c t, joined segs = c :: t ∧ c ≠ '\\' ∧ c ≠ '/' := by
  obtain ⟨s, segs, rfl⟩ := List.exists_cons_of_ne_nil filled
  obtain ⟨ne, noBackslash, noSlash⟩ := segment s List.mem_cons_self
  obtain ⟨c, s, rfl⟩ := List.exists_cons_of_ne_nil ne
  have first : c ≠ '\\' ∧ c ≠ '/' :=
    ⟨fun same => noBackslash (same ▸ List.mem_cons_self),
      fun same => noSlash (same ▸ List.mem_cons_self)⟩
  cases segs with
  | nil => exact ⟨c, s, joined_singleton _, first⟩
  | cons t segs => exact ⟨c, s ++ '\\' :: joined (t :: segs), joined_cons_cons _ t segs, first⟩

/-- There are no slashes in a name. -/
theorem slash_not_mem_joined {segs : List (List Char)} (segment : ∀ s ∈ segs, IsSegment s) :
    '/' ∉ joined segs := by
  intro mem
  rcases mem_of_mem_intercalate mem with sep | ⟨s, inSegs, mem⟩
  · exact absurd (List.mem_singleton.mp sep) (by decide)
  · exact (segment s inSegs).noSlash mem

/-- The loader looks for the segments that a class name spells, and not for what is in front. -/
theorem Spells.bareName_eq {className : String} {segs : List (List Char)}
    (h : Spells className segs) : (bareName className).toList = joined segs := by
  obtain ⟨k, text⟩ := h.text
  obtain ⟨c, t, begins, ink, -⟩ := exists_joined_eq_cons h.filled h.segment
  have front : ∀ x ∈ List.replicate k '\\', (x == '\\') = true := fun x mem =>
    beq_iff_eq.mpr (List.eq_of_mem_replicate mem)
  have stop : ∀ x ∈ (joined segs).head?, (x == '\\') = false := by
    rw [begins]
    intro x mem
    cases mem
    exact beq_eq_false_iff_ne.mpr ink
  rw [bareName, String.toList_ofList, text, dropWhile_append_of_stop front stop]

/-! ## Paths -/

/-- The text with slashes for backslashes. -/
def slashed (s : List Char) : List Char :=
  s.map fun c => if c == '\\' then '/' else c

theorem slashed_of_not_mem {s : List Char} (none : '\\' ∉ s) : slashed s = s := by
  refine (List.map_congr_left fun c mem => ?_).trans (List.map_id s)
  have other : c ≠ '\\' := fun same => none (same ▸ mem)
  simp [other]

/-- In the path slashes stand where the backslashes were. -/
theorem slashed_joined {segs : List (List Char)} (segment : ∀ s ∈ segs, IsSegment s) :
    slashed (joined segs) = ['/'].intercalate segs := by
  induction segs with
  | nil => rfl
  | cons s segs ih =>
    obtain ⟨first, rest⟩ := List.forall_mem_cons.mp segment
    have plain := slashed_of_not_mem first.noBackslash
    cases segs with
    | nil => rw [joined_singleton, List.intercalate_singleton, plain]
    | cons t segs =>
      have behind := ih rest
      unfold slashed at plain behind ⊢
      rw [joined_cons_cons, List.map_append, List.map_cons, plain, behind,
        List.intercalate_cons_cons, List.append_assoc]
      rfl

/-- What is left of a name names a file unless it begins with a backslash. -/
theorem fileFor_cons {c : Char} (ink : c ≠ '\\') (t : List Char) :
    fileFor (c :: t) = some (String.ofList (slashed (c :: t)) ++ ".php") := by
  have kept : (c :: t).dropWhile (· == '\\') = c :: t :=
    List.dropWhile_cons_of_neg (by simpa using ink)
  rw [fileFor, kept]
  rfl

/-- The file that segments spell is their name with slashes for backslashes. -/
theorem fileOf_eq {segs : List (List Char)} (segment : ∀ s ∈ segs, IsSegment s) :
    fileOf segs = String.ofList (slashed (joined segs)) ++ ".php" := by
  rw [fileOf, slashed_joined segment]

/-- Such a file begins with the character with which the name does. -/
theorem head?_slashed {c : Char} (ink : c ≠ '\\') (t : List Char) (ending : String) :
    (String.ofList (slashed (c :: t)) ++ ending).toList.head? = some c := by
  simp [slashed, ink]

/-- The file for the segments that are left, behind a backslash or not. -/
theorem fileFor_joined {gap : List Char} (gaps : gap = [] ∨ gap = ['\\'])
    {segs : List (List Char)} (filled : segs ≠ []) (segment : ∀ s ∈ segs, IsSegment s) :
    fileFor (gap ++ joined segs) = some (fileOf segs) := by
  obtain ⟨c, t, begins, ink, -⟩ := exists_joined_eq_cons filled segment
  have bare : fileFor (joined segs) = some (fileOf segs) := by
    rw [fileOf_eq segment, begins, fileFor_cons ink]
  rcases gaps with rfl | rfl
  · exact bare
  · rw [← bare]
    rfl

/-- A path that is joined to a directory stands at the end, alone or behind a slash. -/
theorem join_relative (dir : String) {p : String} (relative : p.toList.head? ≠ some '/') :
    ∃ front, (Path.join dir p).toList = front ++ p.toList ∧
      (front = [] ∨ front.getLast? = some '/') := by
  have notAbsolute : Path.isAbsolute p = false := beq_eq_false_iff_ne.mpr relative
  rw [Path.join, notAbsolute, Bool.false_or]
  split
  next => exact ⟨[], rfl, .inl rfl⟩
  next =>
    split
    next closed => exact ⟨dir.toList, String.toList_append, .inr (beq_iff_eq.mp closed)⟩
    next => exact ⟨dir.toList ++ ['/'], by simp, .inr List.getLast?_concat⟩

/-- A path is not changed into another by characters in front of it that end in no slash. -/
theorem join_ne_join {dir dir' p : String} {front : List Char} {c : Char}
    (last : front.getLast? = some c) (noSlash : c ≠ '/') (relative : p.toList.head? ≠ some '/')
    (relative' : (String.ofList front ++ p).toList.head? ≠ some '/') :
    Path.join dir p ≠ Path.join dir' (String.ofList front ++ p) := by
  intro same
  obtain ⟨before, whole, ends⟩ := join_relative dir relative
  obtain ⟨before', whole', -⟩ := join_relative dir' relative'
  rw [same, whole', String.toList_append, String.toList_ofList, ← List.append_assoc] at whole
  have cut : before' ++ front = before := List.append_cancel_right whole
  have here : before.getLast? = some c := by
    rw [← cut, List.getLast?_append, last]
    rfl
  rcases ends with empty | slash
  · rw [empty] at here
    cases here
  · rw [slash] at here
    exact noSlash (Option.some.inj here).symm

end Autoload

/-! ## Roots -/

namespace ClassRoot

open Autoload

/-- The stem of a root without the backslashes in front. -/
def text (r : ClassRoot) : List Char :=
  (bareName r.stem).toList

/-- The segments of a stem: none of the empty one, and else what stands between its backslashes, of
which one may stand at its end. -/
def spaceOf (stem : List Char) : List (List Char) :=
  if stem.isEmpty then [] else ((before? ['\\'] stem).getD stem).splitOn '\\'

/-- The segments of the namespace of a root. -/
def space (r : ClassRoot) : List (List Char) :=
  spaceOf r.text

/-- A class with these segments belongs to a root: the namespace of the root is a proper initial part
of its name. -/
def Applies (r : ClassRoot) (segs : List (List Char)) : Prop :=
  r.space <+: segs ∧ r.space ≠ segs

instance (r : ClassRoot) (segs : List (List Char)) : Decidable (r.Applies segs) :=
  inferInstanceAs (Decidable (_ ∧ _))

/-- Whether a root applies hangs on its text alone. -/
theorem applies_congr {r r' : ClassRoot} (same : r.text = r'.text) {segs : List (List Char)} :
    r.Applies segs ↔ r'.Applies segs := by
  rw [Applies, Applies, space, space, same]

/-- A stem is empty, or it ends in a backslash behind its segments, or in one of them. -/
theorem space_cases (r : ClassRoot) :
    (r.text = [] ∧ r.space = []) ∨
    (∃ front, r.text = front ++ ['\\'] ∧ r.space = front.splitOn '\\') ∨
    ∃ front c, r.text = front ++ [c] ∧ c ≠ '\\' ∧ r.space = r.text.splitOn '\\' := by
  unfold space
  rcases List.eq_nil_or_concat' r.text with text | ⟨front, c, text⟩
  · exact .inl ⟨text, by rw [text]; rfl⟩
  rw [text]
  have filled : (front ++ [c]).isEmpty = false := by simp
  by_cases closed : c = '\\'
  · refine .inr (.inl ⟨front, by rw [closed], ?_⟩)
    rw [spaceOf, filled, closed, before?_append]
    rfl
  · have none_before : before? ['\\'] (front ++ [c]) = none := by
      refine Option.eq_none_iff_forall_ne_some.mpr fun r before => closed ?_
      have last := congrArg List.getLast? (eq_append_of_before? before)
      rwa [List.getLast?_concat, List.getLast?_concat, Option.some.injEq] at last
    refine .inr (.inr ⟨front, c, rfl, closed, ?_⟩)
    rw [spaceOf, filled, none_before]
    rfl

/-- A stem that ends with its last segment: it stands for the global namespace, or has a backslash
at its end. -/
def Closed (r : ClassRoot) : Prop :=
  r.text = [] ∨ r.text.getLast? = some '\\'

/-- The name of a class that belongs to a root: the stem, a backslash unless the stem has one at its
end or is empty, and the segments that are left. -/
theorem Applies.joined_eq {r : ClassRoot} {segs : List (List Char)} (h : r.Applies segs) :
    ∃ gap rest, segs = r.space ++ rest ∧ rest ≠ [] ∧ joined segs = r.text ++ (gap ++ joined rest) ∧
      (gap = [] ∧ r.Closed ∨ gap = ['\\']) := by
  obtain ⟨⟨rest, rfl⟩, proper⟩ := h
  have left : rest ≠ [] := fun none_left => proper (by rw [none_left, List.append_nil])
  rcases r.space_cases with ⟨text, space⟩ | ⟨front, text, space⟩ | ⟨front, c, text, -, space⟩
  · refine ⟨[], rest, rfl, left, ?_, .inl ⟨rfl, .inl text⟩⟩
    rw [text, space]
    rfl
  · refine ⟨[], rest, rfl, left, ?_, .inl ⟨rfl, .inr (by rw [text, List.getLast?_concat])⟩⟩
    rw [space, joined_append (List.splitOn_ne_nil _ _) left, joined_splitOn, text,
      List.append_assoc]
    rfl
  · refine ⟨['\\'], rest, rfl, left, ?_, .inr rfl⟩
    rw [space, joined_append (List.splitOn_ne_nil _ _) left, joined_splitOn]
    rfl

/-- A root that applies begins the name. -/
theorem Applies.begins {r : ClassRoot} {segs : List (List Char)} (h : r.Applies segs) :
    r.text <+: joined segs := by
  obtain ⟨gap, rest, -, -, name, -⟩ := h.joined_eq
  exact ⟨gap ++ joined rest, name.symm⟩

/-- A class belongs to a root behind whose segments the name goes on with a backslash. -/
theorem applies_of_cut {r : ClassRoot} {segs : List (List Char)} (filled : segs ≠ [])
    (segment : ∀ s ∈ segs, IsSegment s) {front t : List Char} (space : r.space = front.splitOn '\\')
    (name : joined segs = front ++ '\\' :: t) : r.Applies segs := by
  have cut := splitOn_joined filled segment
  rw [name, List.splitOn_append_cons_self, ← space] at cut
  refine ⟨⟨_, cut⟩, fun whole => List.splitOn_ne_nil '\\' t ?_⟩
  rw [whole] at cut
  exact List.append_right_eq_self.mp cut

/-- A class whose name begins with a closed stem belongs to the root. -/
theorem applies_of_closed {r : ClassRoot} {segs : List (List Char)} (filled : segs ≠ [])
    (segment : ∀ s ∈ segs, IsSegment s) (begins : r.text <+: joined segs) (closed : r.Closed) :
    r.Applies segs := by
  obtain ⟨t, name⟩ := begins
  rcases r.space_cases with ⟨-, space⟩ | ⟨front, text, space⟩ | ⟨front, c, text, ink, -⟩
  · exact ⟨space ▸ List.nil_prefix, space ▸ filled.symm⟩
  · rw [text, List.append_assoc] at name
    exact applies_of_cut filled segment space name.symm
  · simp [Closed, text, ink] at closed

/-- A name that begins with a stem goes on behind the namespace of the root, or the stem is the whole
name, or it ends within a segment. -/
theorem begins_cases {r : ClassRoot} {segs : List (List Char)} {t : List Char}
    (filled : segs ≠ []) (segment : ∀ s ∈ segs, IsSegment s) (name : joined segs = r.text ++ t) :
    r.Applies segs ∨ t = [] ∨
      ∃ front c d rest, r.text = front ++ [c] ∧ c ≠ '\\' ∧ t = d :: rest ∧ d ≠ '\\' := by
  have closed := applies_of_closed filled segment ⟨t, name.symm⟩
  rcases r.space_cases with ⟨text, -⟩ | ⟨front, text, -⟩ | ⟨front, c, text, ink, space⟩
  · exact .inl (closed (.inl text))
  · exact .inl (closed (.inr (by rw [text, List.getLast?_concat])))
  · cases t with
    | nil => exact .inr (.inl rfl)
    | cons d t =>
      by_cases cut : d = '\\'
      · rw [cut] at name
        exact .inl (applies_of_cut filled segment space name)
      · exact .inr (.inr ⟨front, c, d, t, text, ink, rfl, cut⟩)

end ClassRoot

end RouteDoc
