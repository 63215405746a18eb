import Mathlib.Data.List.Infix
import RouteDoc.Proofs.Autoload.Segments

/-!
# Where the roots place a class

A class lies in the file that the segments of its name behind the namespace of a root spell, under
the directory of the root. Of several roots to which it belongs, one with the most segments counts.

The search compares texts and not segments. It takes the longest stem that the name begins with,
letter by letter. If the stem of a root ends in a backslash, or stands for the global namespace, the
two agree on it. Another stem may end within a segment, and then its root takes classes from
namespaces that only begin alike; or it may be the whole name, and then it hides the root to which
the class belongs.

## Main statements

* `path?_cases`: the search takes a root with the longest stem.
* `path?_located_of_closed`: under stems that end in backslashes, a class is found where it lies.
* `path?_located_iff`: a class is found where it lies just if the root with the longest stem is one
  to which it belongs, or has the whole name for its stem while the class belongs to none.
* `path?_misplaced`: a class that is found elsewhere, and one that is not found.
-/

set_option autoImplicit false

namespace RouteDoc

open Text

namespace Autoload

/-! ## The search -/

/-- A root with the longest of the stems that a name begins with. -/
structure IsLongest (roots : List ClassRoot) (name : List Char) (r : ClassRoot) : Prop where
  mem : r ∈ roots
  begins : r.text <+: name
  /-- Its stem begins with that of any other such root. -/
  longest : ∀ r' ∈ roots, r'.text <+: name → r'.text <+: r.text

/-- The roots with the longest stem have one stem. -/
theorem IsLongest.text_eq {roots : List ClassRoot} {name : List Char} {r r' : ClassRoot}
    (h : IsLongest roots name r) (h' : IsLongest roots name r') : r'.text = r.text :=
  (h.longest r' h'.mem h'.begins).eq_of_length_le (h'.longest r h.mem h.begins).length_le

/-- The best of candidates is one of them, and none has a longer stem. -/
theorem foldl_better (cs : List Candidate) (a : Candidate) :
    ∃ c ∈ a :: cs, cs.foldl better (some a) = some c ∧ ∀ c' ∈ a :: cs, c'.width ≤ c.width := by
  induction cs generalizing a with
  | nil =>
    exact ⟨a, List.mem_cons_self, rfl, List.forall_mem_singleton.mpr (Nat.le_refl _)⟩
  | cons b cs ih =>
    rw [List.foldl_cons, better]
    split
    next shorter =>
      obtain ⟨c, mem, best, longest⟩ := ih a
      obtain ⟨first, rest⟩ := List.forall_mem_cons.mp longest
      have inAll : c ∈ a :: b :: cs := by
        rcases List.mem_cons.mp mem with rfl | mem
        · exact List.mem_cons_self
        · exact List.mem_cons_of_mem a (List.mem_cons_of_mem b mem)
      have second : b.width ≤ c.width := by omega
      exact ⟨c, inAll, best,
        List.forall_mem_cons.mpr ⟨first, List.forall_mem_cons.mpr ⟨second, rest⟩⟩⟩
    next longer =>
      obtain ⟨c, mem, best, longest⟩ := ih b
      obtain ⟨first, rest⟩ := List.forall_mem_cons.mp longest
      have second : a.width ≤ c.width := by omega
      exact ⟨c, List.mem_cons_of_mem a mem, best,
        List.forall_mem_cons.mpr ⟨second, List.forall_mem_cons.mpr ⟨first, rest⟩⟩⟩

/-- A root gives a candidate just if its text begins the name, and the candidate is what is left. -/
theorem candidate?_eq_some_iff {name : List Char} {r : ClassRoot} {c : Candidate} :
    candidate? name r = some c ↔
      ∃ rest, name = r.text ++ rest ∧ ⟨r.path, (bareName r.stem).utf8ByteSize, rest⟩ = c := by
  have step : candidate? name r = (after? r.text name).map fun rest =>
      ⟨r.path, (bareName r.stem).utf8ByteSize, rest⟩ := rfl
  rw [step, Option.map_eq_some_iff]
  constructor
  · rintro ⟨rest, after, same⟩
    exact ⟨rest, eq_append_of_after? after, same⟩
  · rintro ⟨rest, split, same⟩
    rw [split]
    exact ⟨rest, after?_append r.text rest, same⟩

/-- Of two stems with which a name begins, the one with fewer bytes is in front of the other. -/
theorem text_prefix_of_width_le {name : List Char} {r r' : ClassRoot} (begins : r.text <+: name)
    (begins' : r'.text <+: name)
    (le : (bareName r'.stem).utf8ByteSize ≤ (bareName r.stem).utf8ByteSize) :
    r'.text <+: r.text := by
  rcases List.prefix_or_prefix_of_prefix begins' begins with shorter | ⟨more, longer⟩
  · exact shorter
  · have stem : bareName r'.stem = bareName r.stem ++ String.ofList more := by
      rw [← String.toList_inj, String.toList_append, String.toList_ofList]
      exact longer.symm
    rw [stem, String.utf8ByteSize_append] at le
    have empty : (String.ofList more).utf8ByteSize = 0 := by omega
    have none_more : more = [] := by
      have nothing := congrArg String.toList (String.utf8ByteSize_eq_zero_iff.mp empty)
      rwa [String.toList_ofList] at nothing
    rw [none_more, List.append_nil] at longer
    rw [longer]

/-- The search takes a root with the longest stem, if the name begins with any. -/
theorem path?_cases {className : String} {name : List Char}
    (bare : (bareName className).toList = name) (base : String) (roots : List ClassRoot) :
    ((∀ r ∈ roots, ¬r.text <+: name) ∧ path? base roots className = none) ∨
      ∃ r rest, IsLongest roots name r ∧ name = r.text ++ rest ∧
        path? base roots className = (fileFor rest).map (Path.join (Path.join base r.path)) := by
  have step : path? base roots className =
      ((roots.filterMap (candidate? name)).foldl better none).bind fun c =>
        (fileFor c.rest).map fun f => Path.join (Path.join base c.path) f := by
    rw [← bare]
    rfl
  rw [step]
  have candidate : ∀ r ∈ roots, r.text <+: name → ∃ rest,
      ⟨r.path, (bareName r.stem).utf8ByteSize, rest⟩ ∈ roots.filterMap (candidate? name) := by
    rintro r mem ⟨rest, split⟩
    exact ⟨rest, List.mem_filterMap.mpr
      ⟨r, mem, candidate?_eq_some_iff.mpr ⟨rest, split.symm, rfl⟩⟩⟩
  cases found : roots.filterMap (candidate? name) with
  | nil =>
    refine .inl ⟨fun r mem begins => ?_, rfl⟩
    obtain ⟨rest, isCandidate⟩ := candidate r mem begins
    rw [found] at isCandidate
    cases isCandidate
  | cons a cs =>
    obtain ⟨c, mem, best, widest⟩ := foldl_better cs a
    rw [← found] at mem widest
    obtain ⟨r, inRoots, isCandidate⟩ := List.mem_filterMap.mp mem
    obtain ⟨rest, split, rfl⟩ := candidate?_eq_some_iff.mp isCandidate
    have begins : r.text <+: name := ⟨rest, split.symm⟩
    refine .inr ⟨r, rest, ⟨inRoots, begins, fun r' mem' begins' => ?_⟩, split, ?_⟩
    · obtain ⟨rest', isCandidate'⟩ := candidate r' mem' begins'
      exact text_prefix_of_width_le begins begins' (widest _ isCandidate')
    · rw [List.foldl_cons]
      show (cs.foldl better (some a)).bind _ = _
      rw [best, Option.bind_some]

/-! ## Where a class lies -/

/-- The file for a class that belongs to a root. -/
def place (base : String) (segs : List (List Char)) (r : ClassRoot) : String :=
  Path.join (Path.join base r.path) (fileOf (segs.drop r.space.length))

/-- A class lies nowhere if it belongs to no root, and else in the file for a root with the most
segments to which it belongs. -/
def Located (base : String) (roots : List ClassRoot) (segs : List (List Char)) :
    Option String → Prop
  | none => ∀ r ∈ roots, ¬r.Applies segs
  | some path => ∃ r ∈ roots, r.Applies segs ∧
      (∀ r' ∈ roots, r'.Applies segs → r'.space.length ≤ r.space.length) ∧ path = place base segs r

variable {roots : List ClassRoot} {segs : List (List Char)}

/-- A stem is as long as its segments, or one backslash longer. -/
theorem text_length (r : ClassRoot) : (joined r.space).length ≤ r.text.length ∧
    r.text.length ≤ (joined r.space).length + (if r.space = [] then 0 else 1) := by
  rcases r.space_cases with ⟨text, space⟩ | ⟨front, text, space⟩ | ⟨front, c, text, -, space⟩
  · rw [text, space]
    exact ⟨Nat.le_refl _, Nat.le_refl _⟩
  · rw [space, joined_splitOn, text, if_neg (List.splitOn_ne_nil _ _), List.length_append]
    exact ⟨Nat.le_add_right _ _, Nat.le_refl _⟩
  · rw [space, joined_splitOn, if_neg (List.splitOn_ne_nil _ _)]
    exact ⟨Nat.le_refl _, Nat.le_add_right _ _⟩

/-- Of two roots to which a class belongs, the one with the longer stem has no fewer segments. -/
theorem space_length_le {r r' : ClassRoot} (segment : ∀ s ∈ segs, IsSegment s)
    (applies : r.Applies segs) (applies' : r'.Applies segs) (begins : r'.text <+: r.text) :
    r'.space.length ≤ r.space.length := by
  rcases List.prefix_or_prefix_of_prefix applies'.1 applies.1 with shorter | ⟨more, longer⟩
  · exact shorter.length_le
  by_cases none_more : more = []
  · rw [← longer, none_more, List.append_nil]
  -- A further segment would make the stem longer than that of which it is the beginning.
  exfalso
  have inside : ∀ s ∈ more, IsSegment s := fun s mem =>
    segment s (applies'.1.subset (longer ▸ List.mem_append_right _ mem))
  obtain ⟨c, t, first, -⟩ := exists_joined_eq_cons none_more inside
  have some_more : 0 < (joined more).length := by
    rw [first]
    exact Nat.succ_pos _
  have upper := (text_length r).2
  have lower := (text_length r').1
  have le := begins.length_le
  by_cases global : r.space = []
  · rw [if_pos global] at upper
    rw [← longer, global, List.nil_append] at lower
    rw [global] at upper
    have empty : (joined ([] : List (List Char))).length = 0 := rfl
    omega
  · rw [if_neg global] at upper
    rw [← longer, joined_append global none_more, List.length_append, List.length_cons] at lower
    omega

/-- A root with the longest stem to which a class belongs tells where the class lies. -/
theorem located_of_applies (segment : ∀ s ∈ segs, IsSegment s) (base : String) {r : ClassRoot}
    (longest : IsLongest roots (joined segs) r) (applies : r.Applies segs) {rest : List Char}
    (name : joined segs = r.text ++ rest) :
    Located base roots segs ((fileFor rest).map (Path.join (Path.join base r.path))) := by
  obtain ⟨gap, left, split, filled, behind, gaps⟩ := applies.joined_eq
  have rest_eq : rest = gap ++ joined left := List.append_cancel_left (name.symm.trans behind)
  have inside : ∀ s ∈ left, IsSegment s := fun s mem =>
    segment s (split ▸ List.mem_append_right _ mem)
  have drop : segs.drop r.space.length = left := by rw [split, List.drop_left]
  rw [rest_eq, fileFor_joined (gaps.imp_left And.left) filled inside]
  refine ⟨r, longest.mem, applies, fun r' mem' applies' => ?_, ?_⟩
  · exact space_length_le segment applies applies' (longest.longest r' mem' applies'.begins)
  · rw [place, drop]

/-- Where a stem ends within a segment, what is left for a root with a shorter stem begins further
to the left, behind a character that is no backslash. -/
theorem exists_left_of_within {r r' : ClassRoot} {front rest : List Char} {c d : Char}
    (text : r.text = front ++ [c]) (ink : c ≠ '\\') (ink' : d ≠ '\\')
    (name : joined segs = r.text ++ d :: rest) (applies' : r'.Applies segs)
    (begins : r'.text <+: r.text) :
    ∃ left more, segs.drop r'.space.length = left ∧ left ≠ [] ∧
      joined left = more ++ d :: rest ∧ more.getLast? = some c := by
  obtain ⟨gap, left, split, filled, behind, gaps⟩ := applies'.joined_eq
  obtain ⟨x, longer⟩ := begins
  have drop : segs.drop r'.space.length = left := by rw [split, List.drop_left]
  have shared : x ++ d :: rest = gap ++ joined left := by
    rw [name, ← longer, List.append_assoc] at behind
    exact List.append_cancel_left behind
  rw [text] at longer
  -- The longer stem goes on behind the gap, as neither `c` nor `d` is the backslash at its end.
  have cut : ∃ more, more ≠ [] ∧ x = gap ++ more := by
    rcases gaps with ⟨rfl, closed⟩ | rfl
    · refine ⟨x, fun empty => ?_, rfl⟩
      rw [empty, List.append_nil] at longer
      rcases closed with nothing | closed
      · simp [nothing] at longer
      · rw [longer, List.getLast?_concat] at closed
        exact ink (Option.some.inj closed)
    · cases x with
      | nil => exact absurd (List.cons.inj shared).1 ink'
      | cons y more =>
        have backslash : y = '\\' := (List.cons.inj shared).1
        refine ⟨more, fun empty => ?_, congrArg (· :: more) backslash⟩
        rw [empty, backslash] at longer
        exact ink (List.append_inj_right' longer rfl |> List.cons.inj |>.1).symm
  obtain ⟨more, some_more, rfl⟩ := cut
  refine ⟨left, more, drop, filled, ?_, ?_⟩
  · rw [List.append_assoc] at shared
    exact (List.append_cancel_left shared).symm
  · have last := congrArg List.getLast? longer
    rwa [← List.append_assoc, List.getLast?_append_of_ne_nil _ some_more, List.getLast?_concat]
      at last

/-- Where a stem ends within a segment, a class does not lie in the file that its root gives. -/
theorem not_located_of_within (segment : ∀ s ∈ segs, IsSegment s)
    (base : String) {r : ClassRoot} (longest : IsLongest roots (joined segs) r)
    {front rest : List Char} {c d : Char} (text : r.text = front ++ [c]) (ink : c ≠ '\\')
    (ink' : d ≠ '\\') (name : joined segs = r.text ++ d :: rest) :
    ¬Located base roots segs
      ((fileFor (d :: rest)).map (Path.join (Path.join base r.path))) := by
  rw [fileFor_cons ink']
  rintro ⟨r', mem', applies', -, found⟩
  obtain ⟨left, more, drop, left_filled, left_name, last⟩ := exists_left_of_within text ink ink' name
    applies' (longest.longest r' mem' applies'.begins)
  have noSlash : ∀ x ∈ joined segs, x ≠ '/' := fun x mem same =>
    slash_not_mem_joined segment (same ▸ mem)
  have inside : ∀ s ∈ left, IsSegment s := fun s mem =>
    segment s (List.mem_of_mem_drop (drop ▸ mem))
  have file : fileOf left =
      String.ofList (slashed more) ++ (String.ofList (slashed (d :: rest)) ++ ".php") := by
    rw [fileOf_eq inside, left_name, slashed, List.map_append, String.ofList_append,
      String.append_assoc]
    rfl
  have last_more : (slashed more).getLast? = some c := by
    rw [slashed, List.getLast?_map, last]
    simp [ink]
  have relative := head?_slashed ink' rest ".php"
  have relative' : (fileOf left).toList.head? ≠ some '/' := by
    obtain ⟨x, t, first, x_ink, x_noSlash⟩ := exists_joined_eq_cons left_filled inside
    rw [fileOf_eq inside, first, head?_slashed x_ink]
    exact fun same => x_noSlash (Option.some.inj same)
  -- Both paths end in what is left for `r`. In front of it stands a slash, or else the `c` of `more`.
  rw [place, drop, file] at found
  rw [file] at relative'
  refine join_ne_join last_more (noSlash c ?_) ?_ relative' found
  · rw [name, text]
    simp
  · rw [relative]
    refine fun same => noSlash d ?_ (Option.some.inj same)
    rw [name]
    simp

/-- Under closed stems, a class is found where it lies. -/
theorem path?_located_of_closed {className : String} (spells : Spells className segs)
    (base : String) (closed : ∀ r ∈ roots, r.Closed) :
    Located base roots segs (path? base roots className) := by
  rcases path?_cases spells.bareName_eq base roots with
    ⟨none_begins, path⟩ | ⟨r, rest, longest, name, path⟩
  · rw [path]
    exact fun r mem applies => none_begins r mem applies.begins
  · rw [path]
    have applies := ClassRoot.applies_of_closed spells.filled spells.segment longest.begins
      (closed r longest.mem)
    exact located_of_applies spells.segment base longest applies name

/-- **A class is found where it lies** just if the longest stem with which its name begins is that
of a root to which it belongs, or is the whole name while it belongs to none. -/
theorem path?_located_iff {className : String} (spells : Spells className segs) (base : String)
    (roots : List ClassRoot) :
    Located base roots segs (path? base roots className) ↔
      ∀ r, IsLongest roots (joined segs) r →
        r.Applies segs ∨ r.text = joined segs ∧ ∀ r' ∈ roots, ¬r'.Applies segs := by
  have ⟨_, filled, segment⟩ := spells
  rcases path?_cases spells.bareName_eq base roots with
    ⟨none_begins, path⟩ | ⟨r, rest, longest, name, path⟩
  · rw [path]
    exact iff_of_true (fun r mem applies => none_begins r mem applies.begins)
      fun r longest => absurd longest.begins (none_begins r longest.mem)
  rw [path]
  constructor
  · intro located r' longest'
    -- Any root with the longest stem has that of `r`, and so the same classes belong to it.
    have same : r'.text = r.text := longest.text_eq longest'
    rw [ClassRoot.applies_congr same, same]
    rcases ClassRoot.begins_cases filled segment name with
      applies | whole | ⟨front, c, d, rest, text, ink, rfl, ink'⟩
    · exact .inl applies
    · rw [whole] at located name
      exact .inr ⟨by rw [name, List.append_nil], located⟩
    · exact absurd located (not_located_of_within segment base longest text ink ink' name)
  · intro right
    rcases right r longest with applies | ⟨whole, none_applies⟩
    · exact located_of_applies segment base longest applies name
    · have nothing : rest = [] := by
        rw [whole] at name
        exact List.append_right_eq_self.mp name.symm
      rw [nothing]
      exact none_applies

namespace Sample

/-- The segments of a name that is given as texts. -/
def segments (name : List String) : List (List Char) :=
  name.map String.toList

/-- A root for `App`, and one within it whose stem has no backslash at its end. -/
def nested : List ClassRoot :=
  [⟨"\\App\\", "app"⟩, ⟨"App\\Admin", "modules/admin"⟩]

/-- A class that belongs to both roots lies under the one with more segments. -/
theorem path?_located_nested :
    Spells "\\App\\Admin\\User" (segments ["App", "Admin", "User"]) ∧
    path? "/srv" nested "\\App\\Admin\\User" = some "/srv/modules/admin/User.php" ∧
    Located "/srv" nested (segments ["App", "Admin", "User"])
      (path? "/srv" nested "\\App\\Admin\\User") := by
  have spells : Spells "\\App\\Admin\\User" (segments ["App", "Admin", "User"]) :=
    ⟨⟨1, by decide⟩, by decide, by decide⟩
  refine ⟨spells, by decide +kernel, (path?_located_iff spells "/srv" nested).mpr ?_⟩
  intro r longest
  have both : ∀ r ∈ nested, r.Applies (segments ["App", "Admin", "User"]) := by decide +kernel
  exact .inl (both r longest.mem)

/-- A stem that ends within a segment. -/
def within : List ClassRoot :=
  [⟨"App", "app"⟩]

/-- A stem that is the whole name of a class, behind one for the namespace of the class. -/
def whole : List ClassRoot :=
  [⟨"App\\", "app"⟩, ⟨"App\\Foo", "foo"⟩]

/-- `Application\X` belongs to no root and is found under that of `App`; `App\Foo` belongs to the
root of `App` and is not found. -/
theorem path?_misplaced :
    (Spells "Application\\X" (segments ["Application", "X"]) ∧
      path? "/srv" within "Application\\X" = some "/srv/app/lication/X.php" ∧
      ¬Located "/srv" within (segments ["Application", "X"])
        (path? "/srv" within "Application\\X")) ∧
    Spells "App\\Foo" (segments ["App", "Foo"]) ∧
      path? "/srv" whole "App\\Foo" = none ∧
      ¬Located "/srv" whole (segments ["App", "Foo"]) (path? "/srv" whole "App\\Foo") := by
  have captured : path? "/srv" within "Application\\X" = some "/srv/app/lication/X.php" := by
    decide +kernel
  have hidden : path? "/srv" whole "App\\Foo" = none := by decide +kernel
  have outside : ∀ r ∈ within, ¬r.Applies (segments ["Application", "X"]) := by decide +kernel
  have inside : ClassRoot.Applies ⟨"App\\", "app"⟩ (segments ["App", "Foo"]) := by decide +kernel
  refine ⟨⟨⟨⟨0, by decide⟩, by decide, by decide⟩, captured, ?_⟩,
    ⟨⟨0, by decide⟩, by decide, by decide⟩, hidden, ?_⟩
  · rw [captured]
    rintro ⟨r, mem, applies, -⟩
    exact outside r mem applies
  · rw [hidden]
    exact fun none_applies => none_applies _ List.mem_cons_self inside

end Sample

end Autoload

end RouteDoc
