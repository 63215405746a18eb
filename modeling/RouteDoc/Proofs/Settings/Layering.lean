import RouteDoc.Settings.Layers

/-!
# Layers over a tree

Settings of one value stand in sections, which are tables at the top of the tree. A layer that
leaves every section a table changes the sections entry by entry: what it says of an entry takes the
place of what was there, and every other entry stays. What a layer says of an entry is what the tree
has there that it makes out of nothing.

A table over a table is merged into it, so that the entry is not always what the layer says alone.
But then the entry is a table either way, from which no single value is read; `Alike` passes over
that difference.

## Main statements

* `sectioned_overlay`: such a layer leaves every section a table.
* `over_overlay`: an entry in the tree with the layer over it is what the layer says, or else what
  the tree has.
-/

set_option autoImplicit false

namespace RouteDoc.Setting

/-! ## Entries -/

@[simp] theorem entries_table (es : List (String × Setting)) : entries (some (table es)) = es := rfl

@[simp] theorem entries_none : entries none = [] := rfl

/-- To set an entry that is there changes what is found under its name, and nothing else. -/
theorem lookup_map_set (es : List (String × Setting)) (name other : String) (v : Setting) :
    (es.map fun e => if e.1 == name then (name, v) else e).lookup other =
      if other = name then (es.lookup other).map fun _ => v else es.lookup other := by
  induction es with
  | nil => simp
  | cons e es ih =>
    obtain ⟨k, w⟩ := e
    rw [List.map_cons]
    by_cases here : k = name
    · subst here
      by_cases wanted : other = k
      · simp [wanted]
      · simpa [List.lookup_cons, wanted, beq_eq_false_iff_ne.mpr wanted] using ih
    · rw [if_neg (by simpa using here), List.lookup_cons, List.lookup_cons, ih]
      by_cases wanted : other = k
      · subst wanted
        simp [here]
      · simp [beq_eq_false_iff_ne.mpr wanted]

/-- An entry that is set is found, and every other one as before. -/
theorem lookup_put (es : List (String × Setting)) (name other : String) (v : Setting) :
    (put es name v).lookup other = if other = name then some v else es.lookup other := by
  by_cases there : es.any (·.1 == name) = true
  · have found : (es.lookup name).isSome = true := by
      obtain ⟨e, mem, same⟩ := List.any_eq_true.mp there
      refine List.lookup_isSome_iff.mpr ⟨e, mem, ?_⟩
      rwa [BEq.comm]
    obtain ⟨w, eq⟩ := Option.isSome_iff_exists.mp found
    rw [put, if_pos there, lookup_map_set]
    by_cases wanted : other = name
    · simp [wanted, eq]
    · simp [wanted]
  · have missing : es.lookup name = none := by
      refine List.lookup_eq_none_iff.mpr fun e mem => ?_
      have absent := List.any_eq_false.mp (Bool.eq_false_iff.mpr there) e mem
      exact bne_iff_ne.mpr fun same => absent (beq_iff_eq.mpr same.symm)
    rw [put, if_neg there, List.lookup_append]
    by_cases wanted : other = name
    · simp [wanted, missing]
    · simp [wanted, List.lookup_cons, beq_eq_false_iff_ne.mpr wanted]

/-! ## Values -/

/-- Whether a value is made of others. -/
def isCompound : Setting → Bool
  | list _ | table _ => true
  | _ => false

/-- Two values that are equal, or that are both made of others. -/
def Alike (v w : Setting) : Prop :=
  v = w ∨ (v.isCompound = true ∧ w.isCompound = true)

/-- Whatever was there, merging gives what the layer says, or a table in both cases. -/
theorem alike_merge (old old' : Option Setting) (v : Setting) :
    Alike (merge old v) (merge old' v) := by
  cases v with
  | table es => exact .inr ⟨rfl, rfl⟩
  | _ => exact .inl rfl

/-- What is set further in is alike too, whatever was there before. -/
theorem alike_setPath (v : Setting) (steps : List Step) (old old' : Option Setting) :
    Alike (setPath v steps old) (setPath v steps old') := by
  match steps with
  | [] => exact alike_merge old old' v
  | .name s :: rest => exact .inr ⟨rfl, rfl⟩
  | [.index i] => exact .inr ⟨rfl, rfl⟩
  | .index i :: s :: rest => exact .inr ⟨rfl, rfl⟩

/-- What a layer says by itself of an entry, what the entry is with the layer over a tree, and what
it is in the tree: a layer that says nothing leaves it, and one that says something replaces it by
something that differs at most inside. -/
inductive Over : Option Setting → Option Setting → Option Setting → Prop where
  | silent (base : Option Setting) : Over none base base
  | told {v w : Setting} (base : Option Setting) (same : Alike v w) : Over (some v) (some w) base

/-! ## Sections -/

/-- The sections in which settings of one value stand. -/
def sections : List String := ["parameters", "annotations", "synthesis"]

/-- The entries that a tree has in a section. -/
def sectionOf (t : Setting) (name : String) : List (String × Setting) :=
  entries ((entries (some t)).lookup name)

/-- Whether a value is a table. -/
def isTable : Setting → Bool
  | table _ => true
  | _ => false

theorem exists_of_isTable {v : Setting} (isTable : v.isTable = true) : ∃ es, v = table es := by
  cases v with
  | table es => exact ⟨es, rfl⟩
  | _ => cases isTable

/-- Whether an entry of a layer leaves every section a table: it sets entries of sections, and has
nothing but a table for a section as a whole. -/
def keepsSections (e : String × Setting) : Bool :=
  match path e.1 with
  | [.name s] => !sections.contains (lower s) || e.2.isTable
  | .name s :: .index _ :: _ => !sections.contains (lower s)
  | _ => true

/-- The tree is a table, and so is every section that it has. -/
def Sectioned (t : Setting) : Prop :=
  ∃ es, t = table es ∧
    ∀ name ∈ sections, ∀ v, es.lookup name = some v → ∃ inner, v = table inner

/-- A path begins with a name, so a layer never has an element of a list at its top. -/
theorem exists_path (name : String) : ∃ s steps, path name = .name s :: steps := by
  unfold path
  dsimp only
  split
  · exact ⟨_, _, rfl⟩
  · split <;> exact ⟨_, _, rfl⟩

/-- The entries of a section with a value set at a path. -/
theorem sectionOf_setPath (v : Setting) (s : String) (steps : List Step) (t : Setting)
    (name : String) :
    sectionOf (setPath v (.name s :: steps) (some t)) name =
      if name = lower s then entries (some (setPath v steps ((entries (some t)).lookup (lower s))))
      else sectionOf t name := by
  rw [sectionOf, setPath, entries_table, lookup_put]
  split <;> rfl

/-- The two ways in which an entry of a layer that leaves every section a table may change one: it
has a table for it, or it leads to an entry of the section. -/
theorem keepsSections_cases {e : String × Setting} (keeps : keepsSections e = true) {s : String}
    {steps : List Step} (leads : path e.1 = .name s :: steps) (inside : lower s ∈ sections) :
    (steps = [] ∧ ∃ es, e.2 = table es) ∨ ∃ k rest, steps = .name k :: rest := by
  rw [keepsSections, leads] at keeps
  match steps with
  | [] =>
    have isTable : e.2.isTable = true := by simpa [inside] using keeps
    exact .inl ⟨rfl, exists_of_isTable isTable⟩
  | .name k :: rest => exact .inr ⟨k, rest, rfl⟩
  | .index i :: rest => simp [inside] at keeps

/-! ## Steps -/

/-- An entry that keeps to the sections leaves each of them a table. -/
theorem sectioned_setPath {t : Setting} (sectioned : Sectioned t) {e : String × Setting}
    (keeps : keepsSections e = true) : Sectioned (setPath e.2 (path e.1) (some t)) := by
  obtain ⟨s, steps, leads⟩ := exists_path e.1
  obtain ⟨es, rfl, tables⟩ := sectioned
  rw [leads]
  refine ⟨_, rfl, fun name inside v found => ?_⟩
  rw [entries_table, lookup_put] at found
  split at found
  · rename_i same
    subst same
    cases found
    rcases keepsSections_cases keeps leads inside with ⟨rfl, inner, isTable⟩ | ⟨k, rest, rfl⟩
    · exact ⟨_, by rw [isTable]; rfl⟩
    · exact ⟨_, rfl⟩
  · exact tables name inside v found

/-- Over entries of one place in three trees: what a layer makes of nothing, what it makes of a
tree, and the tree itself. -/
def OverEntries (own full base : List (String × Setting)) : Prop :=
  ∀ key, Over (own.lookup key) (full.lookup key) (base.lookup key)

/-- One entry that is set is what the layer says of it. -/
theorem OverEntries.put {own full base : List (String × Setting)}
    (laid : OverEntries own full base) (name : String) {v w : Setting} (same : Alike v w) :
    OverEntries (put own name v) (put full name w) base := by
  intro key
  rw [lookup_put, lookup_put]
  split
  · exact .told _ same
  · exact laid key

/-- Each entry of a table that is merged in is what the layer says of it. -/
theorem OverEntries.mergeAll (es : List (String × Setting)) {own full base : List (String × Setting)}
    (laid : OverEntries own full base) :
    OverEntries (mergeAll own es) (mergeAll full es) base := by
  induction es generalizing own full with
  | nil => exact laid
  | cons e es ih => exact ih (laid.put (lower e.1) (alike_merge _ _ e.2))

/-- What a layer makes of nothing, what it makes of a tree, and the tree, in every section. -/
def OverTree (own full base : Setting) : Prop :=
  ∀ name ∈ sections, OverEntries (sectionOf own name) (sectionOf full name) (sectionOf base name)

/-- The step: one entry of a layer is laid over the sections. -/
theorem OverTree.setPath {own full base : Setting} (laid : OverTree own full base)
    {e : String × Setting} (keeps : keepsSections e = true) :
    OverTree (setPath e.2 (path e.1) (some own)) (setPath e.2 (path e.1) (some full)) base := by
  intro name inside
  obtain ⟨s, steps, leads⟩ := exists_path e.1
  rw [leads, sectionOf_setPath, sectionOf_setPath]
  by_cases here : name = lower s
  · subst here
    rw [if_pos rfl, if_pos rfl]
    rcases keepsSections_cases keeps leads inside with ⟨rfl, es, isTable⟩ | ⟨k, rest, rfl⟩
    · rw [isTable]
      exact (laid _ inside).mergeAll es
    · exact (laid _ inside).put (lower k) (alike_setPath e.2 rest _ _)
  · rw [if_neg here, if_neg here]
    exact laid name inside

/-! ## Layers -/

/-- The run: all entries of a layer leave the sections tables. -/
theorem sectioned_overlay {t : Setting} (sectioned : Sectioned t) {layer : List (String × Setting)}
    (keeps : layer.all keepsSections = true) : Sectioned (overlay t layer) := by
  induction layer generalizing t with
  | nil => exact sectioned
  | cons e layer ih =>
    obtain ⟨first, rest⟩ := Bool.and_eq_true_iff.mp keeps
    exact ih (sectioned_setPath sectioned first) rest

/-- **An entry with a layer over a tree is what the layer says, or else what the tree has.** -/
theorem over_overlay (t : Setting) {layer : List (String × Setting)}
    (keeps : layer.all keepsSections = true) :
    OverTree (overlay (table []) layer) (overlay t layer) t := by
  -- The two trees are built entry by entry, so the induction speaks of any that are built so far.
  have onward : ∀ {own full : Setting}, OverTree own full t →
      OverTree (overlay own layer) (overlay full layer) t := by
    intro own full laid
    induction layer generalizing own full with
    | nil => exact laid
    | cons e layer ih =>
      obtain ⟨first, rest⟩ := Bool.and_eq_true_iff.mp keeps
      exact ih rest (laid.setPath first)
  exact onward fun name inside key => .silent _

end RouteDoc.Setting
