import RouteDoc.Proofs.Synthesis.Keys

/-!
# Values without a name

A value whose name could not be worked out is left out, unless such values are to be documented too;
then it stands under a placeholder. For a filter or a field it gets a descriptor like any other
value: a guess from the placeholder, an example, the records of the comment. Here two runs from one
generator are compared, of which one documents such values and the other leaves them out. They go
on in step, since the placeholder suggests a text, and for a text nothing is drawn.

## Main statements

* `generator_placeholder`: the step, at one value without a name.
* `perValueAll_placeholders`: the run over all values.
* `synthesize_emitting`: what documenting values without a name adds, and that it changes nothing
  else.
-/

set_option autoImplicit false

namespace RouteDoc

/-- What a list has at the places of the values that have a name. -/
def Resolved.atSupported {α : Type} (values : List Resolved) (l : List α) : List α :=
  ((values.zip l).filter (·.1.isSupported)).map Prod.snd

/-- The options with or without the documentation of values that have no name. -/
def SynthesisOptions.emitting (options : SynthesisOptions) (emit : Bool) : SynthesisOptions :=
  { options with emitUnsupported := emit }

namespace Synthesis

open Resolved

variable (today : Date) (key : String) (records : List Override)

/-- With values that have no name, every value is named, some by a placeholder. -/
theorem names_emitting_true (options : SynthesisOptions) (values : List Resolved) :
    names (options.emitting true) values = values.map rendered := by
  have all : (values.filter fun _ => true) = values := List.filter_eq_self.mpr fun _ _ => rfl
  simp only [names, SynthesisOptions.emitting, Bool.true_or, all]

theorem names_emitting_false (options : SynthesisOptions) (values : List Resolved) :
    names (options.emitting false) values = (values.filter isSupported).map rendered := by
  simp [names, SynthesisOptions.emitting]

/-- The placeholder ends in no syllable and begins with no word that suggests anything. -/
theorem guess_placeholder : Guess.ofName placeholder = .text := by
  decide

/-- Nothing is drawn for a value without a name, whatever the records say of it. -/
theorem generator_placeholder (g : Generator) :
    (perValue today key records placeholder g).2 = g := by
  show (sample today g (Guess.ofName placeholder)).2 = g
  rw [guess_placeholder]
  rfl

/-- The first value is drawn for first, and the others from where that leaves the generator. -/
theorem perValueAll_cons (name : String) (names : List String) (g : Generator) :
    perValueAll today key records (name :: names) g =
      ((perValue today key records name g).1 ::
          (perValueAll today key records names (perValue today key records name g).2).1,
        (perValueAll today key records names (perValue today key records name g).2).2) := rfl

/-- The values that have a name get the same descriptors as among all values, and the generator ends
in the same place. -/
theorem perValueAll_placeholders (values : List Resolved) (g : Generator) :
    perValueAll today key records ((values.filter isSupported).map rendered) g =
      (atSupported values (perValueAll today key records (values.map rendered) g).1,
        (perValueAll today key records (values.map rendered) g).2) := by
  induction values generalizing g with
  | nil => rfl
  | cons v values ih =>
    cases v with
    | name s =>
      -- Both runs draw for the name, and go on from the same generator.
      have rest := ih (perValue today key records s g).2
      rw [List.filter_cons_of_pos rfl, List.map_cons, List.map_cons, rendered, perValueAll_cons,
        perValueAll_cons, rest]
      rfl
    | unsupported =>
      -- One run passes the value over, and the other draws nothing for it.
      have rest := ih g
      have still := generator_placeholder today key records g
      rw [List.filter_cons_of_neg (by decide), List.map_cons, rendered, perValueAll_cons, still,
        rest]
      rfl

/-- **Documenting values without a name only adds descriptors.** For filters and fields, every value
gets a descriptor under its own key, or under that of the placeholder if it has no name. Without
these, what is left are the descriptors at the places of the values that have a name, with the same
examples also where they are random; and in either case the generator ends in the same place. -/
theorem synthesize_emitting (options : SynthesisOptions) {f : Feature}
    (perValue : f.capability.isPerValue = true) (values : List Resolved) (g : Generator) :
    let run := fun emit => synthesize (options.emitting emit) today f values records g
    (run true).1.map Descriptor.key = values.map (keyOf f.key ·.rendered) ∧
      (run false).1 = atSupported values (run true).1 ∧ (run false).2 = (run true).2 := by
  intro run
  have eq : ∀ emit, run emit =
      perValueAll today f.key records (names (options.emitting emit) values) g := by
    intro emit
    show synthesize (options.emitting emit) today f values records g = _
    unfold synthesize
    cases kind : f.capability with
    | filter => rfl
    | field => rfl
    | relation => rw [kind] at perValue; cases perValue
    | sort => rw [kind] at perValue; cases perValue
  have apart := perValueAll_placeholders today f.key records values g
  rw [eq, eq, names_emitting_true, names_emitting_false, apart, keys_perValueAll, List.map_map]
  exact ⟨rfl, rfl, rfl⟩

end Synthesis

namespace Sample

open Synthesis

/-- An identifier and a flag, with a value that has no name in front of each. -/
def gaps : List Resolved :=
  [.unsupported, .name "user_id", .unsupported, .name "is_open"]

/-- The number and the truth value are the same with and without the values in between. -/
theorem synthesize_emitting_of_gaps :
    Capability.filter.isPerValue = true ∧
    ∀ g,
      let run := fun emit =>
        synthesize ({ seed := some 7 : SynthesisOptions }.emitting emit) ⟨2024, 5, 1⟩
          ⟨.filter, "filter", []⟩ gaps [] g
      (run true).1.map Descriptor.key = ["filter[--not_supported--]", "filter[user_id]",
          "filter[--not_supported--]", "filter[is_open]"] ∧
        (run false).1 = Resolved.atSupported gaps (run true).1 ∧ (run false).2 = (run true).2 := by
  refine ⟨rfl, fun g => ?_⟩
  obtain ⟨keys, kept, final⟩ := synthesize_emitting ⟨2024, 5, 1⟩ [] { seed := some 7 }
    (f := ⟨.filter, "filter", []⟩) rfl gaps g
  exact ⟨keys.trans (by decide +kernel), kept, final⟩

end Sample

end RouteDoc
