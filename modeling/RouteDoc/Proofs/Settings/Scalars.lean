import RouteDoc.Proofs.Settings.Layering

/-!
# Settings of one value

Apart from the roots of classes, every setting has one value, and stands under its name in one of
three sections. Where the sections of a tree are tables, reading the tree is reading each of these
settings by itself, together with the roots.

## Main statements

* `Settings.read?_eq_some_iff`: settings are what a tree of sections is read as just if they have
  the value of every setting by that tree, and its roots.
* `ScalarKey.readAt?_defaults`: the layer of defaults agrees with the defaults of the settings.
-/

set_option autoImplicit false

namespace RouteDoc

open Setting Reading

/-! ## Settings of one value -/

/-- A setting of one value: the query keys of the four capabilities, the tag whose values describe
parameters, and the options of the synthesis. -/
inductive ScalarKey where
  | relation
  | filter
  | sort
  | field
  | tag
  | emitUnsupported
  | shuffleIncludes
  | seed
deriving DecidableEq, Repr

namespace ScalarKey

/-- All settings of one value. -/
def all : List ScalarKey :=
  [relation, filter, sort, field, tag, emitUnsupported, shuffleIncludes, seed]

/-- The list of settings is complete. -/
theorem mem_all (k : ScalarKey) : k ∈ all := by
  cases k <;> decide

/-- The section in which a setting stands. -/
def sectionName : ScalarKey → String
  | relation | filter | sort | field => "parameters"
  | tag => "annotations"
  | emitUnsupported | shuffleIncludes | seed => "synthesis"

/-- The name of a setting in its section. -/
def name : ScalarKey → String
  | relation => "include"
  | filter => "filter"
  | sort => "sort"
  | field => "fields"
  | tag => "tag"
  | emitUnsupported => "emit_unsupported"
  | shuffleIncludes => "shuffle_includes"
  | seed => "seed"

/-- The values that the setting may have. -/
abbrev Value : ScalarKey → Type
  | relation | filter | sort | field | tag => String
  | emitUnsupported | shuffleIncludes => Bool
  | seed => Option Nat

/-- The value of the setting. -/
def get : (k : ScalarKey) → Settings → k.Value
  | relation, s => s.keys.relation
  | filter, s => s.keys.filter
  | sort, s => s.keys.sort
  | field, s => s.keys.field
  | tag, s => s.tag
  | emitUnsupported, s => s.synthesis.emitUnsupported
  | shuffleIncludes, s => s.synthesis.shuffleIncludes
  | seed, s => s.synthesis.seed

/-- The value that a setting has by default. -/
def default (k : ScalarKey) : k.Value :=
  k.get {}

/-- The value of the setting that a written value stands for. -/
def read? : (k : ScalarKey) → Setting → Option k.Value
  | relation | filter | sort | field | tag => lenient.text?
  | emitUnsupported | shuffleIncludes => lenient.bool?
  | seed => optional lenient.natural?

/-- What a tree has for the setting. -/
def at? (k : ScalarKey) (t : Setting) : Option Setting :=
  (t.sectionOf k.sectionName).lookup k.name

/-- The value of the setting by a tree, which is the default if the tree has nothing for it. -/
def readAt? (k : ScalarKey) (t : Setting) : Option k.Value :=
  fieldD k.read? k.default k.name (t.sectionOf k.sectionName)

/-- Every setting stands in one of the three sections. -/
theorem sectionName_mem (k : ScalarKey) : k.sectionName ∈ sections := by
  cases k <;> decide

/-- From values that differ at most inside the same value is read. -/
theorem read?_of_alike (k : ScalarKey) {v w : Setting} (alike : Alike v w) :
    k.read? v = k.read? w := by
  have unread : ∀ {v : Setting}, v.isCompound = true → k.read? v = none := by
    intro v compound
    cases v with
    | list items => cases k <;> rfl
    | table es => cases k <;> rfl
    | _ => cases compound
  rcases alike with rfl | ⟨compound, compound'⟩
  · rfl
  · rw [unread compound, unread compound']

/-- The layer of defaults has the default of every setting, or nothing for it. -/
theorem readAt?_defaults (k : ScalarKey) : k.readAt? Settings.defaults = some k.default := by
  cases k <;> rfl

end ScalarKey

/-! ## Reading a tree -/

/-- The roots that a tree has. -/
def Settings.rootsAt? (t : Setting) : Option (List ClassRoot) :=
  fieldD (list? (ClassRoot.read? lenient)) ({} : Settings).autoload "autoload" (entries (some t))

namespace Setting

/-- The entries of a section are what a reader finds there. -/
theorem fieldD_section {α : Type} (read : Setting → Option α) (default : α) (name : String)
    (es : List (String × Setting)) (tables : ∀ v, es.lookup name = some v → ∃ inner, v = table inner)
    (empty : read (table []) = some default) :
    fieldD read default name es = read (table (sectionOf (table es) name)) := by
  rw [fieldD, sectionOf, entries_table]
  cases found : es.lookup name with
  | none => exact empty.symm
  | some v =>
    obtain ⟨inner, rfl⟩ := tables v found
    rfl

end Setting

/-- Query keys are read from a section key by key. -/
theorem QueryKeys.read?_eq_some_iff {es : List (String × Setting)} {q : QueryKeys} :
    QueryKeys.read? lenient (table es) = some q ↔
      fieldD lenient.text? ({} : QueryKeys).relation "include" es = some q.relation ∧
      fieldD lenient.text? ({} : QueryKeys).filter "filter" es = some q.filter ∧
      fieldD lenient.text? ({} : QueryKeys).sort "sort" es = some q.sort ∧
      fieldD lenient.text? ({} : QueryKeys).field "fields" es = some q.field := by
  constructor
  · intro read
    simp only [QueryKeys.read?, record?, Option.bind_eq_bind, Option.bind_eq_some_iff,
      Option.some.injEq] at read
    obtain ⟨_, rfl, relation, hasRelation, filter, hasFilter, sort, hasSort, field, hasField, rfl⟩ :=
      read
    exact ⟨hasRelation, hasFilter, hasSort, hasField⟩
  · rintro ⟨hasRelation, hasFilter, hasSort, hasField⟩
    simp only [QueryKeys.read?, record?, Option.bind_eq_bind, Option.bind_some, hasRelation,
      hasFilter, hasSort, hasField]

/-- The options of the synthesis are read from theirs in the same way. -/
theorem SynthesisOptions.read?_eq_some_iff {es : List (String × Setting)} {o : SynthesisOptions} :
    SynthesisOptions.read? lenient (table es) = some o ↔
      fieldD lenient.bool? ({} : SynthesisOptions).emitUnsupported "emit_unsupported" es =
        some o.emitUnsupported ∧
      fieldD lenient.bool? ({} : SynthesisOptions).shuffleIncludes "shuffle_includes" es =
        some o.shuffleIncludes ∧
      fieldD (optional lenient.natural?) ({} : SynthesisOptions).seed "seed" es = some o.seed := by
  constructor
  · intro read
    simp only [SynthesisOptions.read?, record?, Option.bind_eq_bind, Option.bind_eq_some_iff,
      Option.some.injEq] at read
    obtain ⟨_, rfl, emit, hasEmit, shuffle, hasShuffle, seed, hasSeed, rfl⟩ := read
    exact ⟨hasEmit, hasShuffle, hasSeed⟩
  · rintro ⟨hasEmit, hasShuffle, hasSeed⟩
    simp only [SynthesisOptions.read?, record?, Option.bind_eq_bind, Option.bind_some, hasEmit,
      hasShuffle, hasSeed]

/-- Settings are read from a tree whose sections are tables value by value. -/
theorem Settings.read?_eq_some_iff {t : Setting} (sectioned : Sectioned t) {s : Settings} :
    Settings.read? lenient t = some s ↔
      (∀ k : ScalarKey, k.readAt? t = some (k.get s)) ∧ Settings.rootsAt? t = some s.autoload := by
  obtain ⟨es, rfl, tables⟩ := sectioned
  -- A section that is missing is read as an empty table is.
  have inParameters := fieldD_section (QueryKeys.read? lenient) {} "parameters" es
    (tables _ (by decide)) rfl
  have inAnnotations := fieldD_section (Settings.readTag? lenient) ({} : Settings).tag "annotations"
    es (tables _ (by decide)) rfl
  have inSynthesis := fieldD_section (SynthesisOptions.read? lenient) {} "synthesis" es
    (tables _ (by decide)) rfl
  constructor
  · intro read
    simp only [Settings.read?, record?, Option.bind_eq_bind, Option.bind_eq_some_iff,
      Option.some.injEq] at read
    obtain ⟨_, rfl, keys, hasKeys, tag, hasTag, options, hasOptions, roots, hasRoots, rfl⟩ := read
    obtain ⟨relation, filter, sort, field⟩ :=
      QueryKeys.read?_eq_some_iff.mp (inParameters.symm.trans hasKeys)
    obtain ⟨emit, shuffle, seed⟩ :=
      SynthesisOptions.read?_eq_some_iff.mp (inSynthesis.symm.trans hasOptions)
    refine ⟨fun k => ?_, hasRoots⟩
    cases k with
    | relation => exact relation
    | filter => exact filter
    | sort => exact sort
    | field => exact field
    | tag => exact inAnnotations.symm.trans hasTag
    | emitUnsupported => exact emit
    | shuffleIncludes => exact shuffle
    | seed => exact seed
  · rintro ⟨has, hasRoots⟩
    have hasKeys := inParameters.trans (QueryKeys.read?_eq_some_iff (q := s.keys).mpr
      ⟨has .relation, has .filter, has .sort, has .field⟩)
    have hasTag := inAnnotations.trans (has .tag)
    have hasOptions := inSynthesis.trans (SynthesisOptions.read?_eq_some_iff (o := s.synthesis).mpr
      ⟨has .emitUnsupported, has .shuffleIncludes, has .seed⟩)
    rw [Settings.rootsAt?, entries_table] at hasRoots
    simp only [Settings.read?, record?, Option.bind_eq_bind, Option.bind_some]
    rw [hasKeys, hasTag, hasOptions, hasRoots]
    rfl

end RouteDoc
