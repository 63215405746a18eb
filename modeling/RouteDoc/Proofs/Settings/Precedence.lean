import RouteDoc.Proofs.Settings.Scalars

/-!
# Which layer decides

A setting of one value may be set by a variable of the environment, by a file, or not at all. The
variable comes before the file, and the file before the default. What a variable says goes through
one conversion first: a truth value and a number are taken as such, and anything else as a text.

Only names that begin with `QBDOC__` are read, in whatever letters. The documented names, such as
`QBDOC_PARAMETERS__FILTER`, have one low line in that place, so that a variable of such a name never
says anything.

That each setting has its own layer holds as long as a layer leaves the settings apart. A file that
has something other than a table for a section, and a variable that leads to a whole section or into
a setting, are left out here: they touch settings that they do not name.

## Main statements

* `Settings.ofFile_precedence`: what is loaded has for every setting what the environment says of
  it, or else the file, or else the default; and settings are loaded just if all that can be read.
* `Settings.ofFile_documented`: variables with documented names change nothing.
-/

set_option autoImplicit false

namespace RouteDoc

open Setting Reading

/-! ## Variables -/

namespace ScalarKey

/-- The name of the variable for the setting, in small letters. -/
def variableName (k : ScalarKey) : String :=
  "qbdoc__" ++ k.sectionName ++ "__" ++ k.name

/-- Whether a variable is the one for the setting, in whatever letters. -/
def isNamedBy (k : ScalarKey) (v : String × String) : Bool :=
  lower v.1 == k.variableName

/-- Whether a variable has the documented name for the setting, with one low line in front of the
section, in whatever letters. -/
def isDocumentedBy (k : ScalarKey) (v : String × String) : Bool :=
  lower v.1 == "qbdoc_" ++ k.sectionName ++ "__" ++ k.name

/-- What the environment says of the setting, by the last variable for it. -/
def told? (k : ScalarKey) (env : Environment) : Option Setting :=
  (env.filter k.isNamedBy).getLast?.map fun v => Environment.valueOf v.2

/-- Settings differ in their names alone, without their sections. -/
theorem name_inj {k other : ScalarKey} (same : k.name = other.name) : k = other := by
  revert same
  cases k <;> cases other <;> decide

/-- The name of the variable spells the path to the setting. -/
theorem dotted_variableName (k : ScalarKey) :
    (Text.after? Environment.lead k.variableName.toList).map
      (fun rest => String.ofList (Environment.dotted rest)) =
        some (k.sectionName ++ "." ++ k.name) := by
  cases k <;> decide +kernel

/-- The section and the name, with a dot between them, lead to the setting. -/
theorem path_dotted (k : ScalarKey) :
    path (k.sectionName ++ "." ++ k.name) = [.name k.sectionName, .name k.name] := by
  cases k <;> decide +kernel

theorem lower_sectionName (k : ScalarKey) : lower k.sectionName = k.sectionName := by
  cases k <;> decide

theorem lower_name (k : ScalarKey) : lower k.name = k.name := by
  cases k <;> decide

/-- A text that is a certain name in small letters has the characters of that name. -/
theorem map_toLower_of_lower {s name : String} (same : (lower s == name) = true) :
    s.toList.map Char.toLower = name.toList := by
  rw [← beq_iff_eq.mp same, lower, String.toList_ofList]

/-- The variable for a setting makes an entry at the path to it. -/
theorem setting?_of_named {k : ScalarKey} {v : String × String} (named : k.isNamedBy v = true) :
    Environment.setting? v = some (k.sectionName ++ "." ++ k.name, Environment.valueOf v.2) := by
  obtain ⟨rest, behind, spelled⟩ := Option.map_eq_some_iff.mp k.dotted_variableName
  rw [Environment.setting?, map_toLower_of_lower named, behind, Option.map_some, spelled]

/-- The entry that the variable for a setting makes is that of the setting. -/
theorem eq_of_setting? {k : ScalarKey} {v : String × String} (named : k.isNamedBy v = true)
    {e : String × Setting} (entry : Environment.setting? v = some e) :
    e = (k.sectionName ++ "." ++ k.name, Environment.valueOf v.2) :=
  Option.some.inj (entry.symm.trans (setting?_of_named named))

/-- A variable with a documented name says nothing. -/
theorem setting?_of_documented {k : ScalarKey} {v : String × String}
    (documented : k.isDocumentedBy v = true) : Environment.setting? v = none := by
  -- The second of the two low lines that names begin with is a letter of the section here.
  have behind : Text.after? Environment.lead
      ("qbdoc_" ++ k.sectionName ++ "__" ++ k.name).toList = none := by
    cases k <;> decide +kernel
  rw [Environment.setting?, map_toLower_of_lower documented, behind, Option.map_none]

end ScalarKey

/-- So variables with documented names make no entry of the layer. -/
theorem Environment.layer_documented (env : Environment) :
    layer (env.filter fun v => !ScalarKey.all.any (·.isDocumentedBy v)) = env.layer := by
  rw [layer, layer, List.filterMap_filter]
  refine congrArg (List.filterMap · env) (funext fun v => ?_)
  cases documented : ScalarKey.all.any (·.isDocumentedBy v) with
  | false => rfl
  | true =>
    obtain ⟨k, -, documented⟩ := List.any_eq_true.mp documented
    exact (ScalarKey.setting?_of_documented documented).symm

namespace Setting

/-- Whether a path leads neither to a setting of one value, nor into one, nor to a whole section. -/
def isElsewhere : List Step → Bool
  | .name s :: .name n :: _ =>
    ScalarKey.all.all fun k => !(lower s == k.sectionName && lower n == k.name)
  | .name s :: _ => !sections.contains (lower s)
  | _ => false

end Setting

/-- Whether a variable says nothing, is the one for a setting of one value, or leads elsewhere. -/
def Environment.isPlain (v : String × String) : Bool :=
  match Environment.setting? v with
  | some e => ScalarKey.all.any (·.isNamedBy v) || isElsewhere (path e.1)
  | none => true

namespace ScalarKey

/-- A value that is set at a path with two names or more. -/
theorem at?_setPath (k : ScalarKey) (v : Setting) (s n : String) (rest : List Step) (t : Setting) :
    k.at? (setPath v (.name s :: .name n :: rest) (some t)) =
      if lower s = k.sectionName ∧ lower n = k.name then some (setPath v rest (k.at? t))
      else k.at? t := by
  rw [at?, sectionOf_setPath]
  by_cases inside : k.sectionName = lower s
  · rw [if_pos inside, setPath, entries_table, lookup_put, ← inside]
    by_cases here : k.name = lower n
    · rw [if_pos here, if_pos ⟨rfl, here.symm⟩, at?, sectionOf, ← here]
    · rw [if_neg here, if_neg fun both => here both.2.symm]
      rfl
  · rw [if_neg inside, if_neg fun both => inside both.1.symm]
    rfl

/-- What is set outside of the sections does not touch a setting. -/
theorem at?_of_outside (k : ScalarKey) (v : Setting) {s : String} (steps : List Step)
    (outside : lower s ∉ sections) (t : Setting) :
    k.at? (setPath v (.name s :: steps) (some t)) = k.at? t := by
  have other : k.sectionName ≠ lower s := fun same => outside (same ▸ k.sectionName_mem)
  rw [at?, sectionOf_setPath, if_neg other]
  rfl

/-- What is set at a path that leads elsewhere does not touch a setting. -/
theorem at?_of_elsewhere (k : ScalarKey) (v : Setting) {name : String}
    (elsewhere : isElsewhere (path name) = true) (t : Setting) :
    k.at? (setPath v (path name) (some t)) = k.at? t := by
  obtain ⟨s, steps, leads⟩ := exists_path name
  rw [leads] at elsewhere ⊢
  cases steps with
  | nil => exact k.at?_of_outside v _ (by simpa [isElsewhere] using elsewhere) t
  | cons step rest =>
    cases step with
    | name n =>
      have others := List.all_eq_true.mp elsewhere k k.mem_all
      have notHere : ¬(lower s = k.sectionName ∧ lower n = k.name) := by
        rintro ⟨sameSection, sameName⟩
        simp [sameSection, sameName] at others
      rw [at?_setPath, if_neg notHere]
    | index i => exact k.at?_of_outside v _ (by simpa [isElsewhere] using elsewhere) t

/-- The value of a variable replaces whatever was there. -/
theorem merge_valueOf (old : Option Setting) (text : String) :
    merge old (Environment.valueOf text) = Environment.valueOf text := by
  unfold Environment.valueOf
  dsimp only
  split
  · rfl
  · split
    · rfl
    · split
      · rfl
      · split <;> rfl

/-- The path to a setting leads to that setting. -/
theorem not_elsewhere (k : ScalarKey) :
    isElsewhere (path (k.sectionName ++ "." ++ k.name)) = false := by
  rw [path_dotted, isElsewhere]
  refine List.all_eq_false.mpr ⟨k, k.mem_all, ?_⟩
  simp [lower_sectionName, lower_name]

/-- A variable is the one for at most one setting. -/
theorem eq_of_named {k other : ScalarKey} {v : String × String} (named : k.isNamedBy v = true)
    (also : other.isNamedBy v = true) : k = other := by
  have steps := congrArg (path ·.1) (eq_of_setting? also (setting?_of_named named))
  dsimp only at steps
  rw [path_dotted, path_dotted] at steps
  simp only [List.cons.injEq, Step.name.injEq, and_true] at steps
  exact name_inj steps.2

/-- A value that is set by the variable for a setting. -/
theorem at?_of_named (k : ScalarKey) {other : ScalarKey} (text : String) (t : Setting) :
    k.at? (setPath (Environment.valueOf text) (path (other.sectionName ++ "." ++ other.name))
        (some t)) =
      if k = other then some (Environment.valueOf text) else k.at? t := by
  rw [path_dotted, at?_setPath, lower_sectionName, lower_name]
  by_cases same : k = other
  · subst same
    rw [if_pos ⟨rfl, rfl⟩, if_pos rfl, setPath, merge_valueOf]
  · rw [if_neg same, if_neg fun both => same (name_inj both.2).symm]

/-- The last variable decides: a setting is what the variables behind the first one say, or else
the first one, if it is for the setting. -/
theorem told?_cons (k : ScalarKey) (v : String × String) (env : Environment) :
    k.told? (v :: env) =
      (k.told? env).or (if k.isNamedBy v then some (Environment.valueOf v.2) else none) := by
  rw [told?, told?, List.filter_cons]
  cases k.isNamedBy v with
  | true =>
    rw [if_pos rfl, if_pos rfl, List.getLast?_cons]
    -- The first one is the last one just if none behind it is for the setting.
    cases (env.filter k.isNamedBy).getLast? <;> rfl
  | false => simp

/-- A variable says something of a setting just if it is the one for it. -/
theorem at?_setting (k : ScalarKey) {v : String × String} (plain : Environment.isPlain v = true)
    {e : String × Setting} (entry : Environment.setting? v = some e) (t : Setting) :
    k.at? (setPath e.2 (path e.1) (some t)) =
      (if k.isNamedBy v then some (Environment.valueOf v.2) else none).or (k.at? t) := by
  rw [Environment.isPlain, entry] at plain
  rcases Bool.or_eq_true_iff.mp plain with named | elsewhere
  · obtain ⟨other, -, named⟩ := List.any_eq_true.mp named
    obtain rfl := eq_of_setting? named entry
    rw [at?_of_named]
    by_cases same : k = other
    · subst same
      rw [if_pos rfl, if_pos named, Option.some_or]
    · have unnamed : ¬k.isNamedBy v = true := fun also => same (eq_of_named also named)
      rw [if_neg same, if_neg unnamed, Option.none_or]
  · have unnamed : ¬k.isNamedBy v = true := by
      intro named
      rw [eq_of_setting? named entry, k.not_elsewhere] at elsewhere
      exact Bool.false_ne_true elsewhere
    rw [at?_of_elsewhere k e.2 elsewhere, if_neg unnamed, Option.none_or]

end ScalarKey

/-- A variable leaves every section a table. -/
theorem Environment.keepsSections_setting {v : String × String} (plain : isPlain v = true)
    {e : String × Setting} (entry : setting? v = some e) : keepsSections e = true := by
  rw [isPlain, entry] at plain
  rcases Bool.or_eq_true_iff.mp plain with named | elsewhere
  · obtain ⟨k, -, named⟩ := List.any_eq_true.mp named
    rw [ScalarKey.eq_of_setting? named entry, keepsSections, ScalarKey.path_dotted]
  · obtain ⟨s, steps, leads⟩ := exists_path e.1
    rw [leads] at elsewhere
    rw [keepsSections, leads]
    cases steps with
    | nil =>
      have outside : (!sections.contains (lower s)) = true := elsewhere
      exact Bool.or_eq_true_iff.mpr (.inl outside)
    | cons step rest =>
      cases step with
      | name n => rfl
      | index i => exact elsewhere

/-- A layer of such variables leaves every section a table. -/
theorem Environment.keepsSections_layer {env : Environment} (plain : env.all isPlain = true) :
    env.layer.all keepsSections = true := by
  refine List.all_eq_true.mpr fun e mem => ?_
  obtain ⟨v, isVariable, entry⟩ := List.mem_filterMap.mp mem
  exact keepsSections_setting (List.all_eq_true.mp plain v isVariable) entry

namespace ScalarKey

/-- With the environment over a tree, a setting is what the environment says, or else what the tree
has. -/
theorem at?_environment (k : ScalarKey) {env : Environment}
    (plain : env.all Environment.isPlain = true) (t : Setting) :
    k.at? (overlay t env.layer) = (k.told? env).or (k.at? t) := by
  induction env generalizing t with
  | nil => rfl
  | cons v env ih =>
    obtain ⟨first, rest⟩ := Bool.and_eq_true_iff.mp plain
    rw [told?_cons, Environment.layer]
    cases entry : Environment.setting? v with
    | none =>
      have unnamed : k.isNamedBy v = false := by
        cases named : k.isNamedBy v with
        | false => rfl
        | true => simp [setting?_of_named named] at entry
      rw [List.filterMap_cons_none entry, unnamed, if_neg Bool.false_ne_true, Option.or_none]
      exact ih rest t
    | some e =>
      rw [List.filterMap_cons_some entry, Option.or_assoc, ← k.at?_setting first entry]
      exact ih rest _

/-! ## Three layers -/

/-- The value of a setting by the environment, by the file, or by default, whichever comes first. -/
def value? (k : ScalarKey) (env : Environment) (file : List (String × Setting)) : Option k.Value :=
  match k.told? env with
  | some v => k.read? v
  | none =>
    match k.at? (overlay (table []) file) with
    | some v => k.read? v
    | none => some k.default

/-- A tree says what it has for the setting, or else the default. -/
theorem readAt?_eq (k : ScalarKey) (t : Setting) :
    k.readAt? t = match k.at? t with
      | some v => k.read? v
      | none => some k.default := by
  rw [readAt?, fieldD, at?]
  cases List.lookup k.name (t.sectionOf k.sectionName) <;> rfl

/-- With all layers over each other, each setting has the value of the first that says anything. -/
theorem readAt?_layers (k : ScalarKey) {env : Environment} {file : List (String × Setting)}
    (keeps : file.all keepsSections = true) (plain : env.all Environment.isPlain = true) :
    k.readAt? (overlay (overlay Settings.defaults file) env.layer) = k.value? env file := by
  rw [readAt?_eq, k.at?_environment plain, value?]
  cases k.told? env with
  | some v => rfl
  | none =>
    -- A table that the file has here is merged into the default, but no value is read from either.
    have laid := over_overlay Settings.defaults keeps k.sectionName k.sectionName_mem k.name
    have byDefault := k.readAt?_defaults
    rw [readAt?_eq] at byDefault
    rw [Option.none_or]
    change Over (k.at? _) (k.at? _) (k.at? _) at laid
    generalize k.at? (overlay (table []) file) = own at laid ⊢
    generalize k.at? (overlay Settings.defaults file) = full at laid ⊢
    cases laid with
    | silent => exact byDefault
    | told _ same => exact (k.read?_of_alike same).symm

end ScalarKey

namespace Settings

/-- The layer of the file at a path, if it can be read; without a file it is empty. -/
def layerAt? (files : FileSystem) (path : String) : Option (List (String × Setting)) :=
  if files.has path then fileLayer? files path else some []

/-- The tree of the defaults, a file and the environment. -/
def layered (env : Environment) (file : List (String × Setting)) : Setting :=
  overlay (overlay defaults file) env.layer

/-- The layer of defaults has a table for every section. -/
theorem sectioned_defaults : Sectioned defaults := by
  refine ⟨_, rfl, fun name inside v found => ?_⟩
  simp only [sections, List.mem_cons, List.not_mem_nil, or_false] at inside
  rcases inside with rfl | rfl | rfl <;> exact ⟨_, (Option.some.inj found).symm⟩

/-- All three layers together have tables for their sections. -/
theorem sectioned_layered {env : Environment} {file : List (String × Setting)}
    (keeps : file.all keepsSections = true) (plain : env.all Environment.isPlain = true) :
    Sectioned (layered env file) :=
  sectioned_overlay (sectioned_overlay sectioned_defaults keeps)
    (Environment.keepsSections_layer plain)

/-- Settings are loaded just if they can be read from the tree of the layers. -/
theorem ofFile_eq_ok_iff {files : FileSystem} {env : Environment} {path : String}
    {file : List (String × Setting)} (laid : layerAt? files path = some file) {s : Settings} :
    ofFile files env path = .ok s ↔ read? lenient (layered env file) = some s := by
  rw [layerAt?] at laid
  simp only [ofFile, laid, layered]
  cases read? lenient (overlay (overlay defaults file) env.layer) <;> simp

/-- **Variables with documented names change nothing.** -/
theorem ofFile_documented (files : FileSystem) (env : Environment) (path : String) :
    ofFile files (env.filter fun v => !ScalarKey.all.any (·.isDocumentedBy v)) path =
      ofFile files env path := by
  rw [ofFile, ofFile, Environment.layer_documented]

/-- **The environment comes first, then the file, and then the default.** -/
theorem ofFile_precedence {files : FileSystem} {env : Environment} {path : String}
    {file : List (String × Setting)} (laid : layerAt? files path = some file)
    (keeps : file.all keepsSections = true) (plain : env.all Environment.isPlain = true) :
    (∀ s, ofFile files env path = .ok s ↔
      (∀ k : ScalarKey, k.value? env file = some (k.get s)) ∧
        rootsAt? (layered env file) = some s.autoload) ∧
    ((∃ s, ofFile files env path = .ok s) ↔
      (∀ k : ScalarKey, (k.value? env file).isSome) ∧
        (rootsAt? (layered env file)).isSome) := by
  have each : ∀ s, ofFile files env path = .ok s ↔
      (∀ k : ScalarKey, k.value? env file = some (k.get s)) ∧
        rootsAt? (layered env file) = some s.autoload := by
    intro s
    rw [ofFile_eq_ok_iff laid, read?_eq_some_iff (sectioned_layered keeps plain)]
    simp only [layered, ScalarKey.readAt?_layers _ keeps plain]
  refine ⟨each, ?_, ?_⟩
  · rintro ⟨s, loaded⟩
    obtain ⟨values, roots⟩ := (each s).mp loaded
    exact ⟨fun k => by rw [values k]; rfl, by rw [roots]; rfl⟩
  · rintro ⟨fits, rooted⟩
    obtain ⟨roots, hasRoots⟩ := Option.isSome_iff_exists.mp rooted
    let value (k : ScalarKey) : k.Value := (k.value? env file).get (fits k)
    let s : Settings := {
      keys := ⟨value .relation, value .filter, value .sort, value .field⟩
      tag := value .tag
      synthesis := ⟨value .emitUnsupported, value .shuffleIncludes, value .seed⟩
      autoload := roots }
    refine ⟨s, (each s).mpr ⟨fun k => ?_, hasRoots⟩⟩
    cases k <;> exact (Option.some_get _).symm

end Settings

namespace Sample

/-- A file that sets two query keys. -/
def keyFiles : FileSystem where
  root := .directory [("qbdoc.toml", .file
    ("[parameters]\nfilter = \"file\"\nsort = \"order\"\n".toList.map fun c =>
      UInt8.ofNat c.toNat))]

/-- Variables for two settings, a documented one, and one that has nothing to do with settings. -/
def keyVariables : Environment := [
  ("QBDOC__PARAMETERS__FILTER", "where"),
  ("qbdoc__synthesis__seed", "42"),
  ("QBDOC_PARAMETERS__SORT", "rank"),
  ("HOME", "home")]

/-- One key is set in two layers, one in the file alone, one in the environment alone, and all
others nowhere. -/
theorem ofFile_precedence_of_variables :
    (∃ file, Settings.layerAt? keyFiles "qbdoc.toml" = some file ∧
      file.all keepsSections = true) ∧ keyVariables.all Environment.isPlain = true ∧
    ∃ s, Settings.ofFile keyFiles keyVariables "qbdoc.toml" = .ok s ∧
      s.keys.filter = "where" ∧ s.keys.sort = "order" ∧ s.keys.field = "fields" ∧
      s.synthesis.seed = some 42 := by
  have plain : keyVariables.all Environment.isPlain = true := by decide +kernel
  have layer : (Settings.layerAt? keyFiles "qbdoc.toml").map (fun file => decide (
      file.all keepsSections = true ∧
      (∀ k ∈ ScalarKey.all, (k.value? keyVariables file).isSome) ∧
      (Settings.rootsAt? (Settings.layered keyVariables file)).isSome ∧
      ScalarKey.filter.value? keyVariables file = some "where" ∧
      ScalarKey.sort.value? keyVariables file = some "order" ∧
      ScalarKey.field.value? keyVariables file = some "fields" ∧
      ScalarKey.seed.value? keyVariables file = some (some 42))) = some true := by
    decide +kernel
  obtain ⟨file, laid, facts⟩ := Option.map_eq_some_iff.mp layer
  obtain ⟨keeps, fits, roots, filter, sort, field, seed⟩ := of_decide_eq_true facts
  obtain ⟨each, exist⟩ := Settings.ofFile_precedence laid keeps plain
  obtain ⟨s, loaded⟩ := exist.mpr ⟨fun k => fits k k.mem_all, roots⟩
  obtain ⟨values, -⟩ := (each s).mp loaded
  exact ⟨⟨file, laid, keeps⟩, plain, s, loaded,
    (Option.some.inj (filter.symm.trans (values .filter))).symm,
    (Option.some.inj (sort.symm.trans (values .sort))).symm,
    (Option.some.inj (field.symm.trans (values .field))).symm,
    (Option.some.inj (seed.symm.trans (values .seed))).symm⟩

/-- The documented variable for the key of filters leaves what the file sets. -/
theorem ofFile_documentedFilter :
    ScalarKey.filter.isDocumentedBy ("QBDOC_PARAMETERS__FILTER", "where") = true ∧
    (Settings.ofFile keyFiles [("QBDOC_PARAMETERS__FILTER", "where")] "qbdoc.toml").toOption.map
      (·.keys.filter) = some "file" := by
  decide +kernel

end Sample

end RouteDoc
