import RouteDoc.Proofs.Documenter.Names
import RouteDoc.Proofs.Synthesis.Redrawn

/-!
# Example sets of inclusion and sorting

Inclusion and sorting have one parameter each, and its examples are worked out from all the names at
once: inclusion shows each of them as often as it stands among the values, in some order, and
sorting shows each upwards and then downwards. No record has a say in either, and neither has the
generator but for the order of the inclusions.

## Main statements

* `synthesize_exampleSets`: the examples of both, from the resolved values.
-/

set_option autoImplicit false

namespace RouteDoc

/-- The examples of a descriptor are these texts, and the first of them stands for all. -/
structure Descriptor.Shows (d : Descriptor) (texts : List String) : Prop where
  examples : d.examples = texts.map .str
  example? : d.example? = d.examples.head?

/-- Only an empty set has no first example. -/
theorem Descriptor.Shows.example?_eq_none_iff {d : Descriptor} {texts : List String}
    (h : d.Shows texts) : d.example? = none ↔ texts = [] := by
  rw [h.example?, h.examples, List.head?_eq_none_iff, List.map_eq_nil_iff]

namespace Synthesis

/-- A descriptor that is made for a set of examples shows it. -/
theorem shows_withExamples (key description : String) (texts : List String) :
    (withExamples key description texts).Shows texts where
  examples := rfl
  example? := List.head?_map.symm

/-- The names upwards and downwards, of which there are none just if there are no names. -/
theorem upAndDown_eq_nil_iff (names : List String) :
    (names.flatMap fun v => [v, "-" ++ v]) = [] ↔ names = [] := by
  cases names with
  | nil => simp
  | cons v names => simp

/-- **Inclusion and sorting show every name.** The names are those of the resolved values that are
kept. Inclusion gives one descriptor that shows them in some order, which is their own where they
are not shuffled; sorting gives one that shows each name followed by the same name downwards. Either
has no example just if there are no names, and both are the same whatever records there are. -/
theorem synthesize_exampleSets (options : SynthesisOptions) (today : Date) (key : String)
    (illustrations : List String) (values : List Resolved) (g : Generator) :
    let kept := Resolved.nameAll options.emitUnsupported values
    (∃ d order g', (∀ records, synthesize options today ⟨.relation, key, illustrations⟩ values
          records g = ([d], g')) ∧
        order.Perm kept ∧ (options.shuffleIncludes = false → order = kept ∧ g' = g) ∧
        d.Shows order ∧ (d.example? = none ↔ kept = [])) ∧
      ∃ d, (∀ records, synthesize options today ⟨.sort, key, illustrations⟩ values records g =
          ([d], g)) ∧
        d.Shows (kept.flatMap fun v => [v, "-" ++ v]) ∧ (d.example? = none ↔ kept = []) := by
  intro kept
  have same : names options values = kept := names_eq_nameAll options values
  constructor
  · obtain ⟨order, g', shown, perm, own⟩ := exists_includes_eq key options kept g
    have shows_order := shows_withExamples key inclusionText order
    refine ⟨_, order, g', fun records => ?_, perm, own, shows_order, ?_⟩
    · simp only [synthesize, same, shown]
    · rw [shows_order.example?_eq_none_iff]
      exact ⟨fun none => List.perm_nil.mp (none ▸ perm.symm), fun none => (none ▸ perm).eq_nil⟩
  · have shows_both := shows_withExamples key sortingText (kept.flatMap fun v => [v, "-" ++ v])
    refine ⟨_, fun records => ?_, shows_both, ?_⟩
    · simp only [synthesize, same, sorts]
    · rw [shows_both.example?_eq_none_iff, upAndDown_eq_nil_iff]

end Synthesis

end RouteDoc
