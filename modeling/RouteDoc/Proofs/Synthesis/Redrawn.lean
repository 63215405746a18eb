import Mathlib.Data.List.Forall2
import RouteDoc.Proofs.Random.Draws
import RouteDoc.Proofs.Synthesis.Keys

/-!
# What the generator decides in a descriptor

The same values are synthesised from two generators. The generator is asked for the examples of
identifiers and flags, and for the order of inclusions, and the rest of a descriptor cannot tell
which of the two it came from. Merging records keeps it so: a record looks at the key alone, and
what it replaces it replaces on both sides.

## Main statements

* `perValueAll_redrawn`: descriptors of values, pairwise, differ at most in a drawn example.
* `includes_reordered`: inclusions differ at most in their order, and only where they are shuffled.
-/

set_option autoImplicit false

namespace RouteDoc

/-- Examples that the generator decides for a guess. -/
inductive Guess.Draws : Guess → Json → Prop where
  /-- A number from one to a thousand. -/
  | identifier {n : Nat} (pos : 1 ≤ n) (le : n ≤ 1000) : Draws .identifier (.int n)
  /-- A truth value. -/
  | flag (b : Bool) : Draws .flag (.bool b)

/-- Two descriptors that agree but for an example that each of them drew for a guess. -/
inductive Descriptor.Redrawn (guess : Guess) : Descriptor → Descriptor → Prop where
  /-- No drawn example is left. -/
  | same (d : Descriptor) : Redrawn guess d d
  /-- The drawn examples are left: no record said anything of the type or of examples. -/
  | drawn {d : Descriptor} {e e' : Json} (typed : d.valueType = guess.valueType)
      (lone : d.examples = []) (first : guess.Draws e) (second : guess.Draws e') :
      Redrawn guess { d with example? := some e } { d with example? := some e' }

namespace Descriptor.Redrawn

variable {guess : Guess} {a b : Descriptor}

theorem key_eq (h : Redrawn guess a b) : a.key = b.key := by
  cases h with
  | same => rfl
  | drawn => rfl

/-- A type that is known clears what was drawn. -/
theorem retype_eq (h : Redrawn guess a b) (t : ValueType) (enumValues : List String) :
    a.retype t enumValues = b.retype t enumValues := by
  cases h with
  | same => rfl
  | drawn => rfl

/-- A description takes the place of the same one in both. -/
theorem redescribe (h : Redrawn guess a b) (text : Option String) :
    Redrawn guess (a.redescribe text) (b.redescribe text) := by
  cases text with
  | none => exact h
  | some text =>
    cases h with
    | same => exact .same _
    | @drawn d e e' typed lone first second =>
      exact drawn (d := { d with description := some text }) typed lone first second

/-- Examples that are given replace what was drawn. -/
theorem setExamples (h : Redrawn guess a b) (examples : List String) :
    Redrawn guess (a.setExamples examples) (b.setExamples examples) := by
  cases examples with
  | nil => exact h
  | cons e es =>
    cases h with
    | same => exact .same _
    | drawn => exact .same _

/-- A record changes both in the same way. -/
theorem merge (h : Redrawn guess a b) (r : Override) :
    Redrawn guess (a.merge r) (b.merge r) := by
  refine setExamples (redescribe ?_ r.description) r.examples
  cases r.typeName.bind ValueType.ofName? with
  | none => exact h
  | some t =>
    show Redrawn guess (a.retype t r.enumValues) (b.retype t r.enumValues)
    rw [h.retype_eq]
    exact .same _

/-- The same records target both descriptors, since they have the same key. -/
theorem apply (h : Redrawn guess a b) (valueName : String) (r : Override) :
    Redrawn guess (a.apply valueName r).2 (b.apply valueName r).2 := by
  rw [Descriptor.apply, Descriptor.apply, h.key_eq]
  split
  · exact h.merge r
  · exact h

/-- All records change both in the same way, since each is about both of them or about neither. -/
theorem applyAll (h : Redrawn guess a b) (valueName : String) (rs : List Override) :
    Redrawn guess (a.applyAll valueName rs) (b.applyAll valueName rs) := by
  unfold Descriptor.applyAll
  induction rs generalizing a b with
  | nil => exact h
  | cons r rs ih => exact ih (h.apply valueName r)

end Descriptor.Redrawn

namespace Synthesis

variable (today : Date) (key : String) (records : List Override)

/-- The generator either decides the example for a guess, or has no say in it. -/
theorem sample_draws (guess : Guess) :
    (∀ g, guess.Draws (sample today g guess).1) ∨
      ∀ g g', (sample today g guess).1 = (sample today g' guess).1 := by
  cases guess with
  | date => exact .inr fun _ _ => rfl
  | text => exact .inr fun _ _ => rfl
  | identifier =>
    refine .inl fun g => ?_
    simp only [sample]
    exact .identifier g.identifier_pos g.identifier_le
  | flag =>
    refine .inl fun g => ?_
    simp only [sample]
    exact .flag g.flag.1

/-- What a name says is the same at any two generators, up to an example that they give. -/
theorem guessed_redrawn (name : String) (g g' : Generator) :
    Descriptor.Redrawn (Guess.ofName name) (guessed today key name g).1
      (guessed today key name g').1 := by
  have shown : ∀ g, (guessed today key name g).1 =
      { (guessed today key name g').1 with
        example? := some (sample today g (Guess.ofName name)).1 } := fun _ => rfl
  rw [shown g, shown g']
  rcases sample_draws today (Guess.ofName name) with draws | fixed
  · exact .drawn rfl rfl (draws g) (draws g')
  · rw [fixed g g']
    exact .same _

/-- Two descriptors of one value differ at most in what was drawn for it. -/
theorem perValue_redrawn (name : String) (g g' : Generator) :
    Descriptor.Redrawn (Guess.ofName name) (perValue today key records name g).1
      (perValue today key records name g').1 :=
  (guessed_redrawn today key name g g').applyAll name records

/-- The descriptors of values differ, pair by pair, at most in an example that was drawn for a name.
The generator behind one value is not the same on both sides, so the step is over any two. -/
theorem perValueAll_redrawn (names : List String) (g g' : Generator) :
    List.Forall₂
      (fun a b => ∃ name, a.key = keyOf key name ∧ Descriptor.Redrawn (Guess.ofName name) a b)
      (perValueAll today key records names g).1 (perValueAll today key records names g').1 := by
  induction names generalizing g g' with
  | nil => exact .nil
  | cons name names ih =>
    refine .cons ⟨name, ?_, perValue_redrawn today key records name g g'⟩ (ih _ _)
    exact key_perValue today key records name g

/-- Inclusions are shown in some order, and in their own where they are not shuffled. -/
theorem exists_includes_eq (options : SynthesisOptions) (names : List String) (g : Generator) :
    ∃ order g', includes options key names g = (withExamples key inclusionText order, g') ∧
      order.Perm names ∧ (options.shuffleIncludes = false → order = names ∧ g' = g) := by
  unfold includes
  cases options.shuffleIncludes with
  | false => exact ⟨names, g, rfl, .refl names, fun _ => ⟨rfl, rfl⟩⟩
  | true => exact ⟨_, _, rfl, g.perm_shuffle names, nofun⟩

/-- Inclusions are the same at any two generators, up to their order where they are shuffled. -/
theorem includes_reordered (options : SynthesisOptions) (names : List String) (g g' : Generator) :
    ∃ l l', (includes options key names g).1 = withExamples key inclusionText l ∧
      (includes options key names g').1 = withExamples key inclusionText l' ∧
      (l = l' ∨ options.shuffleIncludes = true ∧ l.Perm l') := by
  obtain ⟨l, _, first, perm, own⟩ := exists_includes_eq key options names g
  obtain ⟨l', _, second, perm', own'⟩ := exists_includes_eq key options names g'
  refine ⟨l, l', congrArg Prod.fst first, congrArg Prod.fst second, ?_⟩
  by_cases shuffled : options.shuffleIncludes = true
  · exact .inr ⟨shuffled, perm.trans perm'.symm⟩
  · have unshuffled : options.shuffleIncludes = false := by simpa using shuffled
    exact .inl ((own unshuffled).1.trans (own' unshuffled).1.symm)

end Synthesis

end RouteDoc
