import RouteDoc.Proofs.Synthesis.Merging

/-!
# Values that a text may take

A record can list the values that its parameter may take, and such a list stands with texts alone.
Whether a parameter is one is for the record to say, or for the records before it, or for the name
of the value. The list, though, is looked at only along with a type that the record gives: without a
known type of its own, a record leaves the values as they are, also where the parameter is a text.

## Main statements

* `Reached.textValued`: whatever is synthesised and merged, only a text has values.
* `enumValues_apply_iff`: a record's list is taken over just if the record has a known type, or
  there is nothing to take over.
* `enumValues_apply_dropped`: a list that is not taken over, though the parameter is a text.
-/

set_option autoImplicit false

namespace RouteDoc

namespace Descriptor

open Synthesis

/-- The descriptors that come about by synthesis and by records applied to them for any value. -/
inductive Reached : Descriptor → Prop where
  | synthesized {options : SynthesisOptions} {today : Date} {f : Feature} {values : List Resolved}
      {records : List Override} {g : Generator} {d : Descriptor}
      (mem : d ∈ (synthesize options today f values records g).1) : Reached d
  | applied {d : Descriptor} (before : Reached d) (valueName : String) (r : Override) :
      Reached (d.apply valueName r).2

/-- What is guessed for a value is reached, by a synthesis without records. -/
theorem Reached.guessed (today : Date) (key name : String) (g : Generator) :
    Reached (Synthesis.guessed today key name g).1 := by
  have alone : (Synthesis.guessed today key name g).1 ∈
      (synthesize {} today ⟨.filter, key, []⟩ [.name name] [] g).1 := List.mem_cons_self
  exact .synthesized alone

/-- Only a text has values. -/
def TextValued (d : Descriptor) : Prop :=
  ∀ values ∈ d.enumValues, d.valueType = .string

variable {d : Descriptor}

/-- A known type decides anew whether there are values; without one they stay with the type. -/
theorem TextValued.merge (h : d.TextValued) (r : Override) : (d.merge r).TextValued := by
  cases typed : r.valueType? with
  | none =>
    rw [merge_of_untyped d typed]
    exact h
  | some t =>
    rw [merge_of_typed d typed]
    intro values given
    change values ∈ (if t = .string then Override.given? Override.enumValues r else none) at given
    split at given
    next isText => exact isText
    next => cases given

/-- A record keeps it so, also if it is about another value. -/
theorem TextValued.apply (h : d.TextValued) (valueName : String) (r : Override) :
    (d.apply valueName r).2.TextValued := by
  unfold Descriptor.apply
  split
  · exact h.merge r
  · exact h

/-- Whatever is reached, only a text has values. -/
theorem Reached.textValued (h : d.Reached) : d.TextValued := by
  induction h with
  | synthesized mem =>
    -- a guess has no values, and neither has a set of examples
    exact forall_synthesize _ _ (fun _ r h => h.merge r) (fun _ _ => nofun) (fun _ _ => nofun)
      _ _ _ _ mem
  | applied before valueName r ih => exact ih.apply valueName r

/-- Without a known type a record leaves the type and the values. -/
theorem enumValues_merge_of_untyped {r : Override} (untyped : r.valueType? = none) :
    (d.merge r).valueType = d.valueType ∧ (d.merge r).enumValues = d.enumValues := by
  rw [merge_of_untyped d untyped]
  exact ⟨rfl, rfl⟩

/-- With a known type and a list, the values are those of the list just if the parameter is now a
text. -/
theorem enumValues_merge_of_typed {r : Override} (typed : r.valueType?.isSome = true)
    (filled : r.enumValues ≠ []) :
    (d.merge r).enumValues =
      if (d.merge r).valueType = .string then some r.enumValues else none := by
  obtain ⟨t, known⟩ := Option.isSome_iff_exists.mp typed
  have given : Override.given? Override.enumValues r = some r.enumValues := if_neg filled
  rw [merge_of_typed d known, given]

/-- **When a list of values is taken over.** Let a record be applied to a descriptor that was
synthesised and may have had other records applied to it. If the record is about it and lists
values, the descriptor has this list where it is a text now, and no values otherwise, just if the
record has a known type, or the descriptor is no text, or it had this very list before; a record
without a known type leaves the values as they are. A record that is not about it leaves all of
it. -/
theorem enumValues_apply_iff (reached : d.Reached) (valueName : String) (r : Override) :
    (r.targets d.key valueName = true → r.enumValues ≠ [] →
      ((d.apply valueName r).2.enumValues =
          (if (d.apply valueName r).2.valueType = .string then some r.enumValues else none) ↔
        r.valueType?.isSome = true ∨ d.valueType ≠ .string ∨
          d.enumValues = some r.enumValues) ∧
      (r.valueType? = none → (d.apply valueName r).2.enumValues = d.enumValues)) ∧
    (r.targets d.key valueName = false → d.apply valueName r = (false, d)) := by
  constructor
  · intro about filled
    have merged : (d.apply valueName r).2 = d.merge r := by rw [Descriptor.apply, if_pos about]
    rw [merged]
    cases typed : r.valueType? with
    | some t =>
      have known : r.valueType?.isSome = true := by rw [typed]; rfl
      exact ⟨iff_of_true (enumValues_merge_of_typed known filled) (.inl rfl),
        fun untyped => absurd untyped (Option.some_ne_none t)⟩
    | none =>
      obtain ⟨sameType, sameValues⟩ := enumValues_merge_of_untyped (d := d) typed
      rw [sameType, sameValues]
      refine ⟨?_, fun _ => rfl⟩
      by_cases isText : d.valueType = .string
      · simp [isText]
      · have noValues : d.enumValues = none :=
          Option.eq_none_iff_forall_not_mem.mpr fun values has =>
            isText (reached.textValued values has)
        simp [isText, noValues]
  · intro other
    rw [Descriptor.apply, if_neg (by simp [other])]

end Descriptor

namespace Sample

open Descriptor

/-- What the name of a status suggests. -/
def guessedStatus : Descriptor :=
  (Synthesis.guessed ⟨2024, 5, 1⟩ "filter" "status" (.ofSeed 7)).1

/-- A record that makes a text of what an earlier record took for a number brings its list. -/
theorem enumValues_apply_iff_of_late :
    let number := (guessedStatus.apply "status" early).2
    number.Reached ∧ number.valueType = .integer ∧ late.targets number.key "status" = true ∧
      late.enumValues ≠ [] ∧
      (number.apply "status" late).2.enumValues = some ["draft", "published"] := by
  intro number
  have reached : number.Reached := .applied (.guessed _ _ _ _) "status" early
  have about : late.targets number.key "status" = true := by decide +kernel
  have filled : late.enumValues ≠ [] := by decide
  have isText : (number.apply "status" late).2.valueType = .string := by decide +kernel
  have taken := ((enumValues_apply_iff reached "status" late).1 about filled).1.mpr
    (.inl (by decide +kernel))
  rw [if_pos isText] at taken
  exact ⟨reached, by decide +kernel, about, filled, taken⟩

/-- A record that gives the type of a list. -/
def listRecord : Override :=
  .parse "string[] status @enum draft, published"

/-- The record is about a text and lists values, and the text has none. -/
theorem enumValues_apply_dropped :
    guessedStatus.Reached ∧ listRecord.targets guessedStatus.key "status" = true ∧
      listRecord.enumValues = ["draft", "published"] ∧
      (guessedStatus.apply "status" listRecord).2.valueType = .string ∧
      (guessedStatus.apply "status" listRecord).2.enumValues = none :=
  ⟨.guessed _ _ _ _, by decide +kernel, by decide +kernel, by decide +kernel, by decide +kernel⟩

end Sample

end RouteDoc
