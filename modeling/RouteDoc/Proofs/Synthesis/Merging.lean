import Mathlib.Data.List.Forall2
import RouteDoc.Proofs.Synthesis.Keys

/-!
# Several records for one value

The records that target a value are merged one after the other. A type that is known clears the
examples and the values, whoever gave them, so where every record has such a type the last one
alone decides on both of them, and the description is all that an earlier record can still
contribute.

One may expect more of the last record: that it wins where an earlier one gave something too, and
leaves standing what only the earlier ones gave. This module says when that is so.

## Main statements

* `merge_of_typed`, `merge_of_untyped`: what one record makes of a descriptor.
* `applyAll_eq`: merging is a fold over the records that target the value.
* `synthesize_fieldByField_iff`: a descriptor is that of the last record, but for the description;
  and each of its fields is the one that was given last just if the last record gives again whatever
  an earlier one gave.
* `synthesize_dropped`: the first of two records gives an example and values, and the descriptor has
  neither.
-/

set_option autoImplicit false

namespace RouteDoc

/-! ## What records give -/

namespace Override

/-- The type that a record gives, if it is a known one. -/
def valueType? (r : Override) : Option ValueType :=
  r.typeName.bind ValueType.ofName?

/-- The list that a record gives, unless it is empty. -/
def given? (list : Override → List String) (r : Override) : Option (List String) :=
  if list r = [] then none else some (list r)

/-- What the last of those records gives that give anything. -/
def lastGiven {α : Type} (give : Override → Option α) (rs : List Override) : Option α :=
  (rs.filterMap give).getLast?

/-- What a record gives counts only if none behind it gives anything. -/
theorem lastGiven_cons {α : Type} (give : Override → Option α) (r : Override)
    (rs : List Override) : lastGiven give (r :: rs) = (lastGiven give rs).or (give r) := by
  unfold lastGiven
  cases here : give r with
  | none => rw [List.filterMap_cons_none here, Option.or_none]
  | some a =>
    rw [List.filterMap_cons_some here, List.getLast?_cons]
    cases (rs.filterMap give).getLast? <;> rfl

/-- What the last record gives comes first. -/
theorem lastGiven_concat {α : Type} (give : Override → Option α) (rs : List Override)
    (last : Override) : lastGiven give (rs ++ [last]) = (give last).or (lastGiven give rs) := by
  unfold lastGiven
  rw [List.filterMap_append, List.getLast?_append]
  cases here : give last with
  | none => rw [List.filterMap_cons_none here]; rfl
  | some a => rw [List.filterMap_cons_some here]; rfl

/-- Nothing is given if no record gives anything. -/
theorem lastGiven_eq_none_iff {α : Type} (give : Override → Option α) (rs : List Override) :
    lastGiven give rs = none ↔ ∀ r ∈ rs, give r = none := by
  rw [lastGiven, List.getLast?_eq_none_iff, List.filterMap_eq_nil_iff]

variable (list : Override → List String)

/-- A record gives no list just if its list is empty. -/
@[simp] theorem given?_eq_none_iff (r : Override) : given? list r = none ↔ list r = [] := by
  simp [given?]

theorem given?_eq_some_iff {r : Override} {given : List String} :
    given? list r = some given ↔ list r = given ∧ given ≠ [] := by
  unfold given?
  split
  next empty => simp [empty, eq_comm]
  next filled =>
    rw [Option.some.injEq]
    exact ⟨fun same => ⟨same, same ▸ filled⟩, And.left⟩

@[simp] theorem getD_given? (r : Override) : (given? list r).getD [] = list r := by
  unfold given?
  split
  next empty => rw [empty]; rfl
  next => rfl

/-- No list that was given last is empty. -/
theorem lastGiven_given?_ne (rs : List Override) : lastGiven (given? list) rs ≠ some [] := by
  intro last
  obtain ⟨r, -, given⟩ := List.mem_filterMap.mp (List.mem_of_getLast? last)
  exact ((given?_eq_some_iff list).mp given).2 rfl

/-- The last record gives the list that was given last just if it gives one, or none did. -/
theorem given?_eq_lastGiven_iff (rs : List Override) (last : Override) :
    given? list last = lastGiven (given? list) (rs ++ [last]) ↔
      (list last = [] → ∀ r ∈ rs, list r = []) := by
  have none_before := lastGiven_eq_none_iff (given? list) rs
  simp only [given?_eq_none_iff] at none_before
  rw [lastGiven_concat, ← none_before]
  by_cases empty : list last = []
  · have none_here : given? list last = none := (given?_eq_none_iff list last).mpr empty
    simp [none_here, empty, eq_comm]
  · have some_here : given? list last = some (list last) := if_neg empty
    simp [some_here, empty]

/-- The same of the lists themselves: nothing given last is an empty list. -/
theorem list_eq_lastGiven_iff (rs : List Override) (last : Override) :
    list last = (lastGiven (given? list) (rs ++ [last])).getD [] ↔
      (list last = [] → ∀ r ∈ rs, list r = []) := by
  rw [← given?_eq_lastGiven_iff]
  refine ⟨fun same => ?_, fun same => ?_⟩
  · have filled := lastGiven_given?_ne list (rs ++ [last])
    cases here : lastGiven (given? list) (rs ++ [last]) with
    | none =>
      rw [here] at same
      exact (given?_eq_none_iff list last).mpr same
    | some given =>
      rw [here] at same filled
      have some_here : list last ≠ [] := fun empty => filled (congrArg some (same.symm.trans empty))
      rw [given?, if_neg some_here]
      exact congrArg some same
  · rw [← same, getD_given?]

end Override

namespace Descriptor

open Override

/-! ## One record -/

/-- A record with a known type leaves nothing of a descriptor but the key and, unless it has one of
its own, the description. -/
theorem merge_of_typed (d : Descriptor) {r : Override} {t : ValueType}
    (typed : r.valueType? = some t) :
    d.merge r = {
      key := d.key
      valueType := t
      description := r.description.or d.description
      example? := r.examples.head?.map .str
      examples := r.examples.map .str
      enumValues := if t = .string then given? Override.enumValues r else none } := by
  have values : (if t = .string ∧ r.enumValues ≠ [] then some r.enumValues else none) =
      if t = .string then given? Override.enumValues r else none := by
    by_cases text : t = .string <;> by_cases empty : r.enumValues = [] <;>
      simp [text, empty, given?]
  have step : d.merge r = ((d.retype t r.enumValues).redescribe r.description).setExamples
      r.examples := by
    unfold valueType? at typed
    rw [merge, typed]
  rw [step, retype, values]
  cases r.description <;> cases r.examples <;> rfl

/-- A record without a known type leaves the type, the format and the values. -/
theorem merge_of_untyped (d : Descriptor) {r : Override} (untyped : r.valueType? = none) :
    d.merge r = { d with
      description := r.description.or d.description
      example? := (r.examples.head?.map .str).or d.example?
      examples := if r.examples = [] then d.examples else r.examples.map .str } := by
  have step : d.merge r = (d.redescribe r.description).setExamples r.examples := by
    unfold valueType? at untyped
    rw [merge, untyped]
  rw [step]
  cases r.description <;> cases r.examples <;> rfl

/-- A record with a description replaces the one that was there. -/
@[simp] theorem description_merge (d : Descriptor) (r : Override) :
    (d.merge r).description = r.description.or d.description := by
  cases typed : r.valueType? with
  | none => rw [merge_of_untyped d typed]
  | some t => rw [merge_of_typed d typed]

/-! ## All records -/

/-- Merging is a fold over the records that target the value, since no record changes the key. -/
theorem applyAll_eq (d : Descriptor) (valueName : String) (rs : List Override) :
    d.applyAll valueName rs = (rs.filter (·.targets d.key valueName)).foldl merge d := by
  show rs.foldl (fun d r => (d.apply valueName r).2) d = _
  induction rs generalizing d with
  | nil => rfl
  | cons r rs ih =>
    rw [List.foldl_cons, ih (d.apply valueName r).2, List.filter_cons]
    by_cases target : r.targets d.key valueName = true
    · simp only [apply, if_pos target, key_merge, List.foldl_cons]
    · simp only [apply, if_neg target]

/-- The description is the one that was given last, or it stays. -/
theorem description_foldl_merge (d : Descriptor) (rs : List Override) :
    (rs.foldl merge d).description =
      (lastGiven Override.description rs).or d.description := by
  induction rs generalizing d with
  | nil => rfl
  | cons r rs ih => rw [List.foldl_cons, ih, description_merge, lastGiven_cons, Option.or_assoc]

/-- A descriptor made of the last of the records, and of the description that was given last. -/
structure FromLast (rs : List Override) (last : Override) (d : Descriptor) : Prop where
  valueType : last.valueType? = some d.valueType
  format : d.format = none
  description : d.description = lastGiven Override.description rs
  /-- The example is the first of the last record. -/
  example? : d.example? = last.examples.head?.map .str
  examples : d.examples = last.examples.map .str
  /-- The values are those of the last record, for a text. -/
  enumValues : d.enumValues =
    if d.valueType = .string then given? Override.enumValues last else none

/-- A descriptor each field of which is the one that was given last. -/
structure FieldByField (rs : List Override) (d : Descriptor) : Prop where
  valueType : rs.getLast?.bind valueType? = some d.valueType
  description : d.description = lastGiven Override.description rs
  /-- The example is the first of those that were given last. -/
  example? : d.example? = ((lastGiven (given? Override.examples) rs).getD []).head?.map .str
  examples : d.examples = ((lastGiven (given? Override.examples) rs).getD []).map .str
  /-- The values of a text are those that were given last. -/
  enumValues : d.valueType = .string → d.enumValues = lastGiven (given? Override.enumValues) rs

/-- The last record gives again what an earlier one gave: examples, and the values of a text. -/
structure GivenAgain (rs : List Override) (last : Override) : Prop where
  /-- It has examples, unless there were none before. -/
  examples : last.examples = [] → ∀ r ∈ rs, r.examples = []
  /-- It has values, unless there were none before. -/
  enumValues : last.valueType? = some .string → last.enumValues = [] →
    ∀ r ∈ rs, r.enumValues = []

/-- Behind a record with a known type, what had no description is made of that record. -/
theorem fromLast_foldl_merge {d : Descriptor} (blank : d.description = none) (rs : List Override)
    {last : Override} (typed : last.valueType?.isSome) :
    FromLast (rs ++ [last]) last ((rs ++ [last]).foldl merge d) := by
  obtain ⟨t, known⟩ := Option.isSome_iff_exists.mp typed
  have described := description_foldl_merge d (rs ++ [last])
  rw [blank, Option.or_none] at described
  -- All but the description is read off the last step.
  rw [List.foldl_append] at described ⊢
  change (merge _ last).description = _ at described
  show FromLast _ last (merge _ last)
  rw [merge_of_typed _ known] at described ⊢
  exact ⟨known, rfl, described, rfl, rfl, rfl⟩

/-- Texts are told apart also when they are written. -/
theorem map_str_inj {a b : List String} : a.map Json.str = b.map Json.str ↔ a = b :=
  (List.map_injective_iff.mpr fun _ _ => Json.str.inj).eq_iff

/-- What is made of the last record has each field as it was given last just if that record gives
them again. -/
theorem FromLast.fieldByField_iff {rs : List Override} {last : Override} {d : Descriptor}
    (h : FromLast (rs ++ [last]) last d) :
    FieldByField (rs ++ [last]) d ↔ GivenAgain rs last := by
  have sets : d.examples =
      ((lastGiven (given? Override.examples) (rs ++ [last])).getD []).map .str ↔
        (last.examples = [] → ∀ r ∈ rs, r.examples = []) := by
    rw [h.examples, map_str_inj, list_eq_lastGiven_iff Override.examples]
  constructor
  · intro each
    refine ⟨sets.mp each.examples, fun text => ?_⟩
    have isText : d.valueType = .string := Option.some.inj (h.valueType.symm.trans text)
    have values := each.enumValues isText
    rw [h.enumValues, if_pos isText] at values
    exact (given?_eq_lastGiven_iff Override.enumValues rs last).mp values
  · intro again
    have same := sets.mpr again.examples
    refine ⟨?_, h.description, ?_, same, fun isText => ?_⟩
    · rw [List.getLast?_concat, Option.bind_some, h.valueType]
    · rw [h.examples, map_str_inj] at same
      rw [h.example?, same]
    · have text : last.valueType? = some .string := isText ▸ h.valueType
      rw [h.enumValues, if_pos isText]
      exact (given?_eq_lastGiven_iff Override.enumValues rs last).mpr (again.enumValues text)

end Descriptor

namespace Synthesis

open Descriptor Override

variable (today : Date) (key : String) (records : List Override)

/-- The records about a value, in their order. -/
def recordsFor (name : String) : List Override :=
  records.filter (·.targets (keyOf key name) name)

/-- A value's descriptor is its guess with the records about it merged in. -/
theorem perValue_eq (name : String) (g : Generator) :
    (perValue today key records name g).1 =
      (recordsFor key records name).foldl merge (guessed today key name g).1 :=
  applyAll_eq (guessed today key name g).1 name records

/-- What holds of the descriptor of each value, whatever the generator, holds value by value. -/
theorem forall₂_perValueAll {P : String → Descriptor → Prop}
    (each : ∀ name g, P name (perValue today key records name g).1) (names : List String)
    (g : Generator) : List.Forall₂ P names (perValueAll today key records names g).1 := by
  induction names generalizing g with
  | nil => exact .nil
  | cons name names ih => exact .cons (each name g) (ih _)

/-- What holds value by value holds of a feature whose values have parameters of their own. -/
theorem forall₂_synthesize {P : String → Descriptor → Prop} {f : Feature}
    (perValue : f.capability.isPerValue = true)
    (each : ∀ name g, P name (Synthesis.perValue today f.key records name g).1)
    (options : SynthesisOptions) (values : List Resolved) (g : Generator) :
    List.Forall₂ P (names options values) (synthesize options today f values records g).1 := by
  unfold synthesize
  cases kind : f.capability with
  | filter => exact forall₂_perValueAll today f.key records each _ g
  | field => exact forall₂_perValueAll today f.key records each _ g
  | relation => rw [kind] at perValue; cases perValue
  | sort => rw [kind] at perValue; cases perValue

/-- **The last record wins.** Where the last of the records about a value has a known type, the
descriptor is made of that record, and of the description that was given last. So each of its fields
is the one that was given last just if the last record gives again what an earlier one gave. -/
theorem synthesize_fieldByField_iff {f : Feature} (perValue : f.capability.isPerValue = true)
    (options : SynthesisOptions) (values : List Resolved) (g : Generator) :
    List.Forall₂
      (fun name d => ∀ rs last, recordsFor f.key records name = rs ++ [last] →
        last.valueType?.isSome →
          FromLast (rs ++ [last]) last d ∧
            (FieldByField (rs ++ [last]) d ↔ GivenAgain rs last))
      (names options values) (synthesize options today f values records g).1 := by
  refine forall₂_synthesize today records perValue (fun name g rs last about typed => ?_)
    options values g
  have made : FromLast (rs ++ [last]) last (Synthesis.perValue today f.key records name g).1 := by
    rw [perValue_eq, about]
    exact fromLast_foldl_merge rfl rs typed
  exact ⟨made, made.fieldByField_iff⟩

end Synthesis

namespace Sample

open Descriptor Override Synthesis

/-- A record about a status that has a description and an example. -/
def early : Override :=
  { typeName := some "integer", name := some "status", description := some "State of the post",
    examples := ["3"] }

/-- A later one about the same status, with an example and values, and without a description. -/
def late : Override :=
  { typeName := some "string", name := some "filter[status]", examples := ["draft"],
    enumValues := ["draft", "published"] }

/-- Both of them, and a record about an author in between. -/
def repeating : List Override :=
  [early, { typeName := some "boolean", name := some "author", examples := ["yes"] }, late]

/-- The status has the description of the first record and all else from the last. -/
theorem synthesize_fieldByField_of_repeating :
    Capability.filter.isPerValue = true ∧
    recordsFor "filter" repeating "status" = [early] ++ [late] ∧ late.valueType?.isSome ∧
    ∀ g, ∃ d,
      (synthesize {} ⟨2024, 5, 1⟩ ⟨.filter, "filter", []⟩ [.name "status"] repeating g).1 = [d] ∧
      FieldByField ([early] ++ [late]) d ∧ d.description = some "State of the post" ∧
      d.enumValues = some ["draft", "published"] := by
  have about : recordsFor "filter" repeating "status" = [early] ++ [late] := by decide +kernel
  have typed : late.valueType? = some .string := by decide +kernel
  have again : GivenAgain [early] late := ⟨by decide +kernel, by decide +kernel⟩
  refine ⟨rfl, about, by rw [typed]; rfl, fun g => ?_⟩
  have each := synthesize_fieldByField_iff ⟨2024, 5, 1⟩ repeating (f := ⟨.filter, "filter", []⟩) rfl
    {} [.name "status"] g
  obtain ⟨made, iff⟩ := (List.forall₂_cons.mp each).1 _ _ about (by rw [typed]; rfl)
  refine ⟨_, rfl, iff.mpr again, made.description.trans (by decide +kernel), ?_⟩
  rw [made.enumValues, if_pos (Option.some.inj (made.valueType.symm.trans typed))]
  decide +kernel

/-- Two records about one status. The first has an example and values, and the last one has none. -/
def dropping : List Override :=
  [{ typeName := some "string", name := some "status", examples := ["draft"],
     enumValues := ["draft", "published"] },
    { typeName := some "string", name := some "filter[status]",
      description := some "State of the post" }]

/-- Though only the first record gives an example and values, the status has neither. -/
theorem synthesize_dropped :
    recordsFor "filter" dropping "status" = dropping ∧
    dropping.map valueType? = [some .string, some .string] ∧
    lastGiven (given? Override.examples) dropping = some ["draft"] ∧
    lastGiven (given? Override.enumValues) dropping = some ["draft", "published"] ∧
    ∃ d, (synthesize {} ⟨2024, 5, 1⟩ ⟨.filter, "filter", []⟩ [.name "status"] dropping
        (.ofSeed 7)).1 = [d] ∧
      d.valueType = .string ∧ d.examples = [] ∧ d.enumValues = none ∧
      ¬FieldByField dropping d := by
  have given : lastGiven (given? Override.enumValues) dropping = some ["draft", "published"] := by
    decide +kernel
  let d := (perValue ⟨2024, 5, 1⟩ "filter" dropping "status" (.ofSeed 7)).1
  have isText : d.valueType = .string := by decide +kernel
  have noValues : d.enumValues = none := by decide +kernel
  refine ⟨by decide +kernel, by decide +kernel, by decide +kernel, given, d, rfl, isText,
    List.isEmpty_iff.mp (by decide +kernel), noValues, fun each => ?_⟩
  have values := each.enumValues isText
  rw [noValues, given] at values
  cases values

end Sample

end RouteDoc
