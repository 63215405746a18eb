import RouteDoc.Synthesis.Basic

/-!
# Keys of synthesised descriptors

A descriptor gets its key from the feature and from the name of its value, before anything is drawn
and before any record is merged, and keeps it. So the keys that a feature gives are known from its
values alone: `synthesize_keys` lists them, and neither the generator, nor the day, nor the records
occur in the list.

Whatever else holds of all descriptors is shown in the same way: it holds of what is guessed and of
a set of examples, and each record that is merged keeps it (`forall_synthesize`).
-/

set_option autoImplicit false

namespace RouteDoc

namespace Descriptor

/-- No part of a record replaces the key. -/
@[simp] theorem key_merge (d : Descriptor) (r : Override) : (d.merge r).key = d.key := by
  unfold merge
  cases r.typeName.bind ValueType.ofName? with
  | none => cases r.description <;> cases r.examples <;> rfl
  | some t => cases r.description <;> cases r.examples <;> rfl

/-- What holds of a descriptor and is kept by each record that is merged into it holds in the end,
whichever of the records target it. -/
theorem applyAll_induction {P : Descriptor → Prop} {d : Descriptor} (start : P d)
    (merge : ∀ d r, P d → P (d.merge r)) (valueName : String) (rs : List Override) :
    P (d.applyAll valueName rs) := by
  unfold applyAll
  induction rs generalizing d with
  | nil => exact start
  | cons r rs ih =>
    refine ih ?_
    show P (d.apply valueName r).2
    unfold apply
    split
    · exact merge d r start
    · exact start

/-- Records do not change the key, since none of them does. -/
@[simp] theorem key_applyAll (d : Descriptor) (valueName : String) (rs : List Override) :
    (d.applyAll valueName rs).key = d.key :=
  applyAll_induction (P := fun x => x.key = d.key) rfl
    (fun x r same => (key_merge x r).trans same) valueName rs

end Descriptor

namespace Synthesis

variable (today : Date) (key : String) (records : List Override)

@[simp] theorem key_guessed (name : String) (g : Generator) :
    (guessed today key name g).1.key = keyOf key name := rfl

@[simp] theorem key_perValue (name : String) (g : Generator) :
    (perValue today key records name g).1.key = keyOf key name := by
  rw [perValue, Descriptor.key_applyAll, key_guessed]

/-- The keys of the values, in their order. -/
theorem keys_perValueAll (names : List String) (g : Generator) :
    (perValueAll today key records names g).1.map Descriptor.key = names.map (keyOf key) := by
  induction names generalizing g with
  | nil => rfl
  | cons name names ih =>
    simp only [perValueAll, List.map_cons, key_perValue, ih]

/-- The keys that a feature gives: one for each value, or its own. -/
theorem synthesize_keys (options : SynthesisOptions) (f : Feature) (values : List Resolved)
    (g : Generator) :
    (synthesize options today f values records g).1.map Descriptor.key =
      if f.capability.isPerValue then (names options values).map (keyOf f.key) else [f.key] := by
  unfold synthesize
  cases f.capability with
  | filter => exact keys_perValueAll today f.key records _ g
  | field => exact keys_perValueAll today f.key records _ g
  | relation => rfl
  | sort => rfl

section Induction

variable {P : Descriptor → Prop} (merge : ∀ d r, P d → P (d.merge r))

include merge

/-- The run over the values: what holds of every guess, and each record keeps, holds of all. -/
theorem forall_perValueAll (guess : ∀ name g, P (guessed today key name g).1)
    (names : List String) (g : Generator) :
    ∀ d ∈ (perValueAll today key records names g).1, P d := by
  induction names generalizing g with
  | nil => exact List.forall_mem_nil _
  | cons name names ih =>
    have first := Descriptor.applyAll_induction (guess name g) merge name records
    exact List.forall_mem_cons.mpr ⟨first, ih _⟩

/-- What holds of a guess and of a set of examples and is kept by each record that is merged holds
of all descriptors. -/
theorem forall_synthesize {f : Feature} (guess : ∀ name g, P (guessed today f.key name g).1)
    (whole : ∀ description examples, P (withExamples f.key description examples))
    (options : SynthesisOptions) (values : List Resolved) (g : Generator) :
    ∀ d ∈ (synthesize options today f values records g).1, P d := by
  unfold synthesize
  cases f.capability with
  | filter => exact forall_perValueAll today f.key records merge guess _ g
  | field => exact forall_perValueAll today f.key records merge guess _ g
  | relation => exact List.forall_mem_singleton.mpr (whole _ _)
  | sort => exact List.forall_mem_singleton.mpr (whole _ _)

end Induction

end Synthesis

end RouteDoc
