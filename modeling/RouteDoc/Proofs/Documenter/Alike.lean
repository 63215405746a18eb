import RouteDoc.Proofs.Documenter.Calls
import RouteDoc.Proofs.Synthesis.Redrawn

/-!
# Documentation from two generators

A handler is documented twice, from two generators. Two operations are alike when they have the same
name and their parameters agree, pair by pair, but for what the settings leave to chance: the
examples of identifiers and flags, and the order of the inclusions.

## Main statements

* `proposed_alike`: what a handler proposes is alike at any two generators.
* `document_cases`: an action either fails with the same fault at every generator, or it is
  documented at every generator, and all these operations are alike.
-/

set_option autoImplicit false

namespace RouteDoc

open Synthesis

/-- The parameter with one example, which its schema shows as well. -/
def Parameter.showing (p : Parameter) (e : Json) : Parameter :=
  { p with example? := some e, schema := { p.schema with example? := some e } }

/-- Two parameters that agree but for what the settings leave to chance. -/
inductive Parameter.Alike (s : Settings) : Parameter → Parameter → Prop where
  /-- Nothing is left to chance. -/
  | same (p : Parameter) : Alike s p p
  /-- The parameter of a value whose name suggests an identifier or a flag, with its type, has one
  example, and this is drawn. -/
  | drawn {p : Parameter} {c : Capability} {v : String} {e e' : Json}
      (perValue : c.isPerValue = true) (named : p.name = Synthesis.keyOf (s.keys.keyOf c) v)
      (typed : p.schema.valueType = (Guess.ofName v).valueType) (lone : p.schema.examples = [])
      (first : (Guess.ofName v).Draws e) (second : (Guess.ofName v).Draws e') :
      Alike s (p.showing e) (p.showing e')
  /-- The inclusions are shuffled, and the first of them is the representative example. -/
  | reordered (shuffled : s.synthesis.shuffleIncludes = true) {l l' : List String}
      (perm : l.Perm l') :
      Alike s (.ofDescriptor (withExamples s.keys.relation inclusionText l))
        (.ofDescriptor (withExamples s.keys.relation inclusionText l'))

/-- Two operations of one name whose parameters agree but for what the settings leave to chance. -/
structure Operation.Alike (s : Settings) (a b : Operation) : Prop where
  /-- They have the same name. -/
  id : a.id = b.id
  /-- Their parameters agree, pair by pair. -/
  parameters : List.Forall₂ (Parameter.Alike s) a.parameters b.parameters

/-- The parameters of two descriptors that differ in a drawn example. -/
theorem Descriptor.Redrawn.alike {s : Settings} {c : Capability} {v : String} {a b : Descriptor}
    (h : Redrawn (Guess.ofName v) a b) (perValue : c.isPerValue = true)
    (named : a.key = Synthesis.keyOf (s.keys.keyOf c) v) :
    Parameter.Alike s (.ofDescriptor a) (.ofDescriptor b) := by
  cases h with
  | same => exact .same _
  | @drawn d e e' typed lone first second =>
    have shown : ∀ x, Parameter.ofDescriptor { d with example? := some x } =
        (Parameter.ofDescriptor d).showing x := by
      intro x
      simp only [Parameter.ofDescriptor, Parameter.showing, lone, List.isEmpty_nil, if_true]
    rw [shown, shown]
    exact .drawn perValue named typed lone first second

namespace Synthesis

/-- What a capability gives is alike at any two generators. -/
theorem synthesize_alike (s : Settings) (c : Capability) (today : Date) (values : List Resolved)
    (records : List Override) (g g' : Generator) :
    List.Forall₂ (fun a b => Parameter.Alike s (.ofDescriptor a) (.ofDescriptor b))
      (synthesize s.synthesis today ⟨c, s.keys.keyOf c, []⟩ values records g).1
      (synthesize s.synthesis today ⟨c, s.keys.keyOf c, []⟩ values records g').1 := by
  have per_value : c.isPerValue = true →
      List.Forall₂ (fun a b => Parameter.Alike s (.ofDescriptor a) (.ofDescriptor b))
        (perValueAll today (s.keys.keyOf c) records (names s.synthesis values) g).1
        (perValueAll today (s.keys.keyOf c) records (names s.synthesis values) g').1 := by
    intro perValue
    refine (perValueAll_redrawn today _ records _ g g').imp ?_
    rintro a b ⟨v, named, redrawn⟩
    exact redrawn.alike perValue named
  cases c with
  | filter => exact per_value rfl
  | field => exact per_value rfl
  | sort => exact .cons (.same _) .nil
  | relation =>
    refine .cons ?_ .nil
    obtain ⟨l, l', first, second, reordered⟩ :=
      includes_reordered s.keys.relation s.synthesis (names s.synthesis values) g g'
    show Parameter.Alike s
      (.ofDescriptor (includes s.synthesis s.keys.relation (names s.synthesis values) g).1)
      (.ofDescriptor (includes s.synthesis s.keys.relation (names s.synthesis values) g').1)
    rw [first, second]
    rcases reordered with rfl | ⟨shuffled, perm⟩
    · exact .same _
    · exact .reordered shuffled perm

end Synthesis

namespace Documenter

variable (d : Documenter) (handler : Code.Tree) (owner : String) (records : List Override)

/-- What the use of one capability proposes is alike at any two generators. -/
theorem proposedBy_alike (c : Capability) (g g' : Generator) :
    List.Forall₂ (fun p q => Parameter.Alike d.settings p.parameter q.parameter)
      (d.proposedBy handler owner records ⟨c, d.settings.keys.keyOf c, []⟩ g).proposals
      (d.proposedBy handler owner records ⟨c, d.settings.keys.keyOf c, []⟩ g').proposals := by
  unfold proposedBy
  cases BuilderCall.find? handler c owner with
  | none => exact .nil
  | some call =>
    rw [List.forall₂_map_left_iff, List.forall₂_map_right_iff]
    exact Synthesis.synthesize_alike d.settings c d.today _ records g g'

/-- What a handler proposes is alike at any two generators. Where one capability leaves the two
generators does not matter to the next. -/
theorem proposed_alike (declaration : Code.Cursor) (g g' : Generator) :
    List.Forall₂ (fun p q => Parameter.Alike d.settings p.parameter q.parameter)
      (d.proposed declaration owner g).proposals (d.proposed declaration owner g').proposals := by
  unfold proposed Settings.features
  generalize Capability.all = cs
  induction cs generalizing g g' with
  | nil => exact .nil
  | cons c cs ih =>
    exact List.rel_append (proposedBy_alike d _ owner _ c g g') (ih _ _)

/-- **The generator decides examples alone.** Without vetoes, an action either fails with the same
fault at every generator, or it is documented at every generator, and then any two of these
operations are alike. -/
theorem document_cases {d : Documenter} (unvetoed : d.vetoes = []) (action : String) :
    (∃ e, ∀ g, d.document g action = .error e) ∨
      ∃ r : Generator → Documented, (∀ g, d.document g action = .ok (r g)) ∧
        ∀ g g', Operation.Alike d.settings (r g).operation (r g').operation := by
  rcases Handler.missing_or_declared d.load action with ⟨e, missing⟩ | ⟨h, u, decl, declared⟩
  · exact .inl ⟨e, document_of_missing missing⟩
  · refine .inr ⟨_, document_of_declared declared, fun g g' => ?_⟩
    rw [unvetoed, Documented.operation_settle_nil, Documented.operation_settle_nil]
    refine ⟨rfl, ?_⟩
    show List.Forall₂ _ (([] : List Parameter) ++ _) (([] : List Parameter) ++ _)
    rw [List.nil_append, List.nil_append, List.forall₂_map_left_iff, List.forall₂_map_right_iff]
    exact proposed_alike d h.className decl g g'

end Documenter

end RouteDoc
