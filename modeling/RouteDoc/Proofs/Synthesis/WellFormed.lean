import RouteDoc.Parameter.Operation
import RouteDoc.Proofs.Random.Draws
import RouteDoc.Proofs.Synthesis.Merging

/-!
# Descriptors of values are well formed

A descriptor of a value starts from one of four guesses and has any number of records merged into
it, in any order and with anything in them. Its fields still fit together: there are values for
texts alone and never none of them, the format is that of a guessed date, the examples are those of
one record, and an example that no record gave is of the type. The invariant is indexed by the
records that were merged so far, as what is said of the format and of the examples is said of them.

## Main statements

* `Settled.merge`, `Settled.foldl_merge`: one record keeps the invariant, and so do all of them.
* `synthesize_wellFormed`: the descriptors of values are well formed, and the parameter of one that
  has an example shows it once in its schema.
-/

set_option autoImplicit false

namespace RouteDoc

/-- The examples that are of a type, as they are guessed: an identifier goes up to a thousand. -/
inductive ValueType.Shows : ValueType → Json → Prop where
  | string (s : String) : Shows .string (.str s)
  /-- A number from one to a thousand. -/
  | integer {n : Nat} (pos : 1 ≤ n) (le : n ≤ 1000) : Shows .integer (.int n)
  | boolean (b : Bool) : Shows .boolean (.bool b)

/-- A guess is illustrated by a value of its type. -/
theorem Synthesis.sample_shows (today : Date) (g : Generator) (guess : Guess) :
    guess.valueType.Shows (sample today g guess).1 := by
  cases guess with
  | date => exact .string _
  | text => exact .string _
  | identifier => exact .integer g.identifier_pos g.identifier_le
  | flag => exact .boolean _

namespace Descriptor

/-- The fields of a descriptor fit together, where a guess had these records merged into it. -/
structure Settled (guess : Guess) (merged : List Override) (d : Descriptor) : Prop where
  /-- Values are those of a text, and there is one. -/
  enumValues : ∀ values ∈ d.enumValues, d.valueType = .string ∧ values ≠ []
  /-- A format is that of a guessed date, to which no record gave a known type. -/
  format : ∀ format ∈ d.format, format = "date" ∧ d.valueType = .string ∧ guess = .date ∧
    ∀ r ∈ merged, r.valueType? = none
  /-- Examples are those of one record, and the first of them is the example. -/
  examples : d.examples ≠ [] →
    d.example? = d.examples.head? ∧ ∃ r ∈ merged, d.examples = r.examples.map .str
  /-- An example without a set of them is of the type. -/
  example? : d.examples = [] → ∀ e ∈ d.example?, d.valueType.Shows e

namespace Settled

variable {guess : Guess} {merged : List Override} {d : Descriptor}

/-- One record keeps the fields together. Of a known type it leaves nothing of the descriptor that
would have to fit; and without one it can only put its own examples in the place of others. -/
theorem merge (h : Settled guess merged d) (r : Override) :
    Settled guess (merged ++ [r]) (d.merge r) := by
  have mine : r ∈ merged ++ [r] := List.mem_append_right merged List.mem_cons_self
  cases typed : r.valueType? with
  | some t =>
    rw [merge_of_typed d typed]
    refine ⟨fun values given => ?_, nofun, fun _ => ⟨List.head?_map.symm, r, mine, rfl⟩,
      fun empty e first => ?_⟩
    · change values ∈ (if t = .string then Override.given? Override.enumValues r else none) at given
      split at given
      next isText => exact ⟨isText, ((Override.given?_eq_some_iff _).mp given).2⟩
      next => cases given
    · change r.examples.map Json.str = [] at empty
      change e ∈ r.examples.head?.map Json.str at first
      rw [List.map_eq_nil_iff.mp empty] at first
      cases first
  | none =>
    have format : ∀ format ∈ d.format, format = "date" ∧ d.valueType = .string ∧ guess = .date ∧
        ∀ x ∈ merged ++ [r], x.valueType? = none := by
      intro format mem
      obtain ⟨isDate, isText, guessed, untyped⟩ := h.format format mem
      exact ⟨isDate, isText, guessed,
        List.forall_mem_append.mpr ⟨untyped, List.forall_mem_singleton.mpr typed⟩⟩
    rw [merge_of_untyped d typed]
    -- Examples of its own replace all that there were; otherwise those stay, with their record.
    by_cases empty : r.examples = []
    · rw [if_pos empty, empty]
      refine ⟨h.enumValues, format, fun filled => ?_, h.example?⟩
      obtain ⟨first, x, mem, set⟩ := h.examples filled
      exact ⟨first, x, List.mem_append_left [r] mem, set⟩
    · rw [if_neg empty]
      obtain ⟨e, es, given⟩ := List.exists_cons_of_ne_nil empty
      refine ⟨h.enumValues, format, fun _ => ⟨?_, r, mine, rfl⟩, fun none_given => ?_⟩
      · rw [given]
        rfl
      · exact absurd (List.map_eq_nil_iff.mp none_given) empty

/-- The run: any number of records, one after another. -/
theorem foldl_merge (h : Settled guess merged d) (rs : List Override) :
    Settled guess (merged ++ rs) (rs.foldl Descriptor.merge d) := by
  induction rs generalizing d merged with
  | nil => rwa [List.append_nil]
  | cons r rs ih =>
    have rest := ih (h.merge r)
    rwa [List.append_assoc] at rest

end Settled

/-- A descriptor of a value that has its own key and whose fields fit together, after those of the
records were merged that are about the value. -/
structure WellFormed (key name : String) (records : List Override) (d : Descriptor) : Prop
    extends Settled (Guess.ofName name) (Synthesis.recordsFor key records name) d where
  key : d.key = Synthesis.keyOf key name

end Descriptor

/-- A parameter has an example, and its schema has it once: as the example, or in front of all
examples. -/
structure Parameter.ShowsOnce (e : Json) (p : Parameter) : Prop where
  own : p.example? = some e
  /-- Without a set of examples, it is the example of the schema. -/
  alone : p.schema.examples = [] → p.schema.example? = some e
  /-- A set of examples begins with it and leaves the schema without an example. -/
  first : p.schema.examples ≠ [] →
    p.schema.example? = none ∧ p.schema.examples.head? = some e

/-- A descriptor whose example is the first of its examples, if it has any, is laid out that way. -/
theorem Parameter.showsOnce_ofDescriptor {d : Descriptor}
    (first : d.examples ≠ [] → d.example? = d.examples.head?) {e : Json} (has : d.example? = some e) :
    (Parameter.ofDescriptor d).ShowsOnce e where
  own := has
  alone empty := by
    change d.examples = [] at empty
    show (if d.examples.isEmpty then d.example? else none) = some e
    rw [empty, has]
    rfl
  first filled := by
    change d.examples ≠ [] at filled
    refine ⟨?_, (first filled).symm.trans has⟩
    show (if d.examples.isEmpty then d.example? else none) = none
    rw [List.isEmpty_eq_false_iff.mpr filled]
    rfl

namespace Synthesis

open Descriptor

/-- A guess fits together before any record is merged into it. -/
theorem settled_guessed (today : Date) (key name : String) (g : Generator) :
    Settled (Guess.ofName name) [] (guessed today key name g).1 where
  enumValues := nofun
  format format mem := by
    change format ∈ (Guess.ofName name).format at mem
    change format = "date" ∧ (Guess.ofName name).valueType = .string ∧ _
    cases guess : Guess.ofName name with
    | date =>
      rw [guess] at mem
      cases mem
      exact ⟨rfl, rfl, rfl, List.forall_mem_nil _⟩
    | identifier => rw [guess] at mem; cases mem
    | flag => rw [guess] at mem; cases mem
    | text => rw [guess] at mem; cases mem
  examples filled := absurd rfl filled
  example? _ e mem := by
    cases mem
    exact sample_shows today g (Guess.ofName name)

/-- The descriptor of one value is well formed. -/
theorem wellFormed_perValue (today : Date) (key : String) (records : List Override)
    (name : String) (g : Generator) :
    WellFormed key name records (perValue today key records name g).1 where
  toSettled := by
    rw [perValue_eq]
    exact (settled_guessed today key name g).foldl_merge _
  key := key_perValue today key records name g

/-- **Every descriptor of a value is well formed**, whatever records there are and whatever they say
of it. And if it has an example, its parameter shows the example, and so does the schema of the
parameter, in one place. -/
theorem synthesize_wellFormed {f : Feature} (perValue : f.capability.isPerValue = true)
    (options : SynthesisOptions) (today : Date) (values : List Resolved)
    (records : List Override) (g : Generator) :
    List.Forall₂
      (fun name d => WellFormed f.key name records d ∧
        ∀ e ∈ d.example?, (Parameter.ofDescriptor d).ShowsOnce e)
      (names options values) (synthesize options today f values records g).1 := by
  refine forall₂_synthesize today records perValue (fun name g => ?_) options values g
  have formed := wellFormed_perValue today f.key records name g
  exact ⟨formed, fun e has =>
    Parameter.showsOnce_ofDescriptor (fun filled => (formed.examples filled).1) has⟩

end Synthesis

namespace Sample

open Descriptor Synthesis

/-- With the records about a status, a date keeps what was guessed, and the status has the example
of the later record. -/
theorem synthesize_wellFormed_of_repeating :
    Capability.filter.isPerValue = true ∧ ∀ g, ∃ date status,
      (synthesize {} ⟨2024, 5, 1⟩ ⟨.filter, "filter", []⟩
        [.name "created_at", .unsupported, .name "status"] repeating g).1 = [date, status] ∧
      WellFormed "filter" "created_at" repeating date ∧
      WellFormed "filter" "status" repeating status ∧
      (Parameter.ofDescriptor date).ShowsOnce (.str "2024-05-01") ∧
      (Parameter.ofDescriptor status).ShowsOnce (.str "draft") := by
  refine ⟨rfl, fun g => ?_⟩
  have each := synthesize_wellFormed (f := ⟨.filter, "filter", []⟩) rfl {} ⟨2024, 5, 1⟩
    [.name "created_at", .unsupported, .name "status"] repeating g
  obtain ⟨⟨date, shown⟩, rest⟩ := List.forall₂_cons.mp each
  obtain ⟨⟨status, shown'⟩, -⟩ := List.forall₂_cons.mp rest
  refine ⟨_, _, rfl, date, status, shown _ ?_, shown' _ ?_⟩
  · have about : recordsFor "filter" repeating "created_at" = [] := by decide +kernel
    have text : (⟨2024, 5, 1⟩ : Date).text = "2024-05-01" := by decide +kernel
    show (perValue ⟨2024, 5, 1⟩ "filter" repeating "created_at" g).1.example? = _
    rw [perValue_eq, about, ← text]
    rfl
  · have about : recordsFor "filter" repeating "status" = [early] ++ [late] := by decide +kernel
    have first : late.examples.head? = some "draft" := by decide +kernel
    show (perValue ⟨2024, 5, 1⟩ "filter" repeating "status" g).1.example? = _
    rw [perValue_eq, about]
    refine (fromLast_foldl_merge rfl [early] (by decide +kernel)).example?.trans ?_
    rw [first]
    rfl

end Sample

end RouteDoc
