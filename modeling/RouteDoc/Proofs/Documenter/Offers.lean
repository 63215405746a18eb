import RouteDoc.Proofs.Documenter.Names

/-!
# What vetoes get to see

A veto may look at the operation, and the operation grows by what the vetoes let pass, so what
becomes of one parameter can decide over the next. The offers of a task record this, each with the
operation that it was made to and the number of vetoes that were asked. `Offer.Heard` says which
vetoes these are and what they answered, and `Offer.Successive` which operation each offer finds.

## Main statements

* `Veto.heard_offer`: the vetoes are asked in order, up to the first that halts the parameter.
* `Documented.exists_offers_settle`: the run. Each offer finds what the offers before it added.
* `Documenter.addHandler_offers`: the offers of a handler, over all its capabilities.
-/

set_option autoImplicit false

namespace RouteDoc

/-! ## One offer -/

/-- Which vetoes were asked about an offer, and what they answered. Each of them was asked about the
operation, the parameter and the feature of the offer. -/
inductive Offer.Heard (vetoes : List Veto) (o : Offer) : Prop where
  /-- Those in front of the first that halts the parameter were asked, and that one. -/
  | halted {before behind : List Veto} {v : Veto} (split : vetoes = before ++ v :: behind)
      (pass : ∀ u ∈ before, u o.operation o.parameter o.feature = false)
      (halts : v o.operation o.parameter o.feature = true)
      (asked : o.asked = before.length + 1) (outcome : o.halted = true)
  /-- All were asked, and none of them halts the parameter. -/
  | passed (pass : ∀ u ∈ vetoes, u o.operation o.parameter o.feature = false)
      (asked : o.asked = vetoes.length) (outcome : o.halted = false)

/-- With a veto in front that lets the parameter pass, one more is asked. -/
theorem Offer.Heard.cons {vetoes : List Veto} {o : Offer} (h : o.Heard vetoes) {v : Veto}
    (pass : v o.operation o.parameter o.feature = false) :
    Heard (v :: vetoes) { o with asked := o.asked + 1 } := by
  cases h with
  | halted split others halts asked outcome =>
    exact .halted (congrArg (v :: ·) split) (List.forall_mem_cons.mpr ⟨pass, others⟩) halts
      (congrArg (· + 1) asked) outcome
  | passed others asked outcome =>
    exact .passed (List.forall_mem_cons.mpr ⟨pass, others⟩) (congrArg (· + 1) asked) outcome

namespace Veto

variable (vetoes : List Veto)

/-- A veto that halts the parameter is the last one that is asked. -/
theorem offer_cons_of_halts {v : Veto} {op : Operation} {p : Parameter} {f : Feature}
    (halts : v op p f = true) : offer (v :: vetoes) op p f = ⟨op, p, f, 1, true⟩ := by
  simp only [offer, ask, halts, if_true]

/-- A veto that lets the parameter pass is asked in addition to the others. -/
theorem offer_cons_of_pass {v : Veto} {op : Operation} {p : Parameter} {f : Feature}
    (pass : v op p f = false) :
    offer (v :: vetoes) op p f =
      { offer vetoes op p f with asked := (offer vetoes op p f).asked + 1 } := by
  simp [offer, ask, pass]

/-- The vetoes are asked in order, up to the first that halts the parameter. -/
theorem heard_offer (op : Operation) (p : Parameter) (f : Feature) :
    (offer vetoes op p f).Heard vetoes := by
  induction vetoes with
  | nil => exact .passed (List.forall_mem_nil _) rfl rfl
  | cons v vetoes ih =>
    by_cases halts : v op p f = true
    · rw [offer_cons_of_halts vetoes halts]
      exact .halted (List.nil_append (v :: vetoes)).symm (List.forall_mem_nil _) halts rfl rfl
    · have pass : v op p f = false := by simpa using halts
      rw [offer_cons_of_pass vetoes pass]
      exact ih.cons pass

end Veto

/-! ## One offer after the other -/

namespace Offer

/-- The parameters of the offers that were not halted, in order. -/
def accepted (os : List Offer) : List Parameter :=
  (os.filter fun o => !o.halted).map parameter

/-- What was accepted behind an offer stands behind its parameter, if that was accepted. -/
theorem append_accepted_after (o : Offer) (os : List Offer) :
    (Veto.after o).append (accepted os) = o.operation.append (accepted (o :: os)) := by
  unfold Veto.after accepted
  cases h : o.halted with
  | false => simp [h]
  | true => simp [h]

/-- Offers that are made one after the other, the first of them to `op`. -/
structure Successive (vetoes : List Veto) (op : Operation) (os : List Offer) : Prop where
  /-- The vetoes are asked about each of them. -/
  heard : ∀ o ∈ os, o.Heard vetoes
  /-- Each of them is made to the operation with what was accepted before. -/
  found : ∀ earlier o later, os = earlier ++ o :: later →
    o.operation = op.append (accepted earlier)

namespace Successive

theorem nil (vetoes : List Veto) (op : Operation) : Successive vetoes op [] where
  heard := List.forall_mem_nil _
  found := fun earlier o later split =>
    absurd split.symm (List.append_ne_nil_of_right_ne_nil earlier (List.cons_ne_nil o later))

/-- An offer, and then the others to what it leaves behind. -/
theorem cons {vetoes : List Veto} {o : Offer} {os : List Offer} (head : o.Heard vetoes)
    (tail : Successive vetoes (Veto.after o) os) : Successive vetoes o.operation (o :: os) where
  heard := List.forall_mem_cons.mpr ⟨head, tail.heard⟩
  found := by
    intro earlier x later split
    cases earlier with
    | nil =>
      obtain ⟨rfl, -⟩ := List.cons.inj split
      exact (Operation.append_nil _).symm
    | cons e earlier =>
      obtain ⟨rfl, rest⟩ := List.cons.inj split
      rw [tail.found earlier x later rest, append_accepted_after]

end Successive

end Offer

/-- Proposals are offered one after the other, and the operation gets what was accepted. The
induction is over the proposals; the operation is general in it, since each proposal finds another.
-/
theorem Documented.exists_offers_settle (w : Documented) (vetoes : List Veto) (p : Proposed) :
    ∃ os, (w.settle vetoes p).offers = w.offers ++ os ∧
      os.map Offer.proposal = p.proposals ∧
      Offer.Successive vetoes w.operation os ∧
      (w.settle vetoes p).operation = w.operation.append (Offer.accepted os) := by
  obtain ⟨ps, g⟩ := p
  rw [settle, foldl_put_generator]
  induction ps generalizing w with
  | nil => exact ⟨[], (List.append_nil _).symm, rfl, .nil vetoes w.operation,
      (Operation.append_nil _).symm⟩
  | cons p ps ih =>
    let o := Veto.offer vetoes w.operation p.parameter p.feature
    have head : o.Heard vetoes := Veto.heard_offer vetoes w.operation p.parameter p.feature
    obtain ⟨os, offers, proposals, tail, joined⟩ := ih (w.put vetoes p)
    refine ⟨o :: os, ?_, congrArg (p :: ·) proposals, .cons head tail, ?_⟩
    · rw [List.foldl_cons, offers]
      exact List.append_assoc w.offers [o] os
    · rw [List.foldl_cons, joined]
      exact Offer.append_accepted_after o os

/-! ## What a feature shows -/

/-- The feature of a proposal stands under the key that is set for its capability. It has no values
where every value has a parameter of its own; otherwise its values are the examples of the
parameter, all of which are texts. -/
structure Proposal.Illustrated (keys : QueryKeys) (p : Proposal) : Prop where
  key : p.feature.key = keys.keyOf p.feature.capability
  perValue : p.feature.capability.isPerValue = true → p.feature.values = []
  whole : p.feature.capability.isPerValue = false →
    p.parameter.schema.examples = p.feature.values.map .str

/-- The features have the keys that are set, and no values yet. -/
theorem Settings.of_mem_features {s : Settings} {f : Feature} (mem : f ∈ s.features) :
    f.key = s.keys.keyOf f.capability ∧ f.values = [] := by
  obtain ⟨c, -, rfl⟩ := List.mem_map.mp mem
  exact ⟨rfl, rfl⟩

/-- A capability without a parameter for each value has one descriptor, whose examples are texts. -/
theorem Synthesis.exists_synthesize_eq {f : Feature} (whole : f.capability.isPerValue = false)
    (options : SynthesisOptions) (today : Date) (values : List Resolved) (records : List Override)
    (g : Generator) : ∃ description texts g', synthesize options today f values records g =
      ([withExamples f.key description texts], g') := by
  unfold synthesize
  cases c : f.capability with
  | filter => exact absurd (c ▸ whole) nofun
  | field => exact absurd (c ▸ whole) nofun
  | relation => exact ⟨_, _, _, rfl⟩
  | sort => exact ⟨_, _, _, rfl⟩

namespace Documenter

@[simp] theorem capability_featureFor (f : Feature) (ds : List Descriptor) :
    (featureFor f ds).capability = f.capability := by
  unfold featureFor
  split <;> rfl

@[simp] theorem key_featureFor (f : Feature) (ds : List Descriptor) :
    (featureFor f ds).key = f.key := by
  unfold featureFor
  split <;> rfl

/-- A feature has examples for its values where it has one parameter as a whole. -/
theorem values_featureFor (f : Feature) (ds : List Descriptor) :
    (featureFor f ds).values = if f.capability.isPerValue then f.values else exampleTexts ds := by
  unfold featureFor
  split <;> rfl

/-- The examples of a set are read off its descriptor again. -/
theorem exampleTexts_withExamples (key description : String) (texts : List String) :
    exampleTexts [Synthesis.withExamples key description texts] = texts := by
  simp only [exampleTexts, Synthesis.withExamples, List.flatMap_singleton, List.filterMap_map]
  exact List.filterMap_some

section Proposals

variable (d : Documenter) (handler : Code.Tree) (owner : String) (records : List Override)

/-- Every proposal for a feature that is set comes with its key and its values. -/
theorem illustrated_proposedBy {f : Feature} (set : f ∈ d.settings.features) (g : Generator) :
    ∀ p ∈ (d.proposedBy handler owner records f g).proposals,
      p.Illustrated d.settings.keys := by
  intro p mem
  obtain ⟨keyed, bare⟩ := Settings.of_mem_features set
  obtain ⟨values, x, synthesised, rfl⟩ := d.exists_of_mem_proposedBy handler owner records mem
  refine ⟨?_, fun perValue => ?_, fun whole => ?_⟩
  · rw [key_featureFor, capability_featureFor, keyed]
  · rw [capability_featureFor] at perValue
    rw [values_featureFor, if_pos perValue, bare]
  · rw [capability_featureFor] at whole
    obtain ⟨description, texts, g', one⟩ := Synthesis.exists_synthesize_eq whole
      d.settings.synthesis d.today values records g
    simp only [one, List.mem_singleton] at synthesised ⊢
    rw [synthesised, values_featureFor, whole, if_neg Bool.false_ne_true,
      exampleTexts_withExamples]
    rfl

end Proposals

/-- **What vetoes get to see.** Whatever a documenter starts from, it offers what a handler
proposes, each parameter once and in order. An offer is made to the operation that was there at
first, with the parameters behind it that were accepted so far, be it for this capability or for an
earlier one. The vetoes are asked in order, up to the first that halts the parameter, and a
parameter is accepted just if none does. In the end the operation has what it had at first, and
behind that the parameters that were accepted. -/
theorem addHandler_offers {d : Documenter} {u : ParsedSource} {owner method : String}
    {declaration : Code.Cursor} (found : u.handler? (some owner) method = some declaration)
    (w : Documented) :
    ∃ w' offers, (d.addHandler u owner method).run w = .ok () w' ∧
      w'.offers = w.offers ++ offers ∧
      offers.map Offer.proposal = (d.proposed declaration owner w.generator).proposals ∧
      (∀ o ∈ offers, o.proposal.Illustrated d.settings.keys) ∧
      Offer.Successive d.vetoes w.operation offers ∧
      w'.operation = w.operation.append (Offer.accepted offers) := by
  obtain ⟨offers, logged, proposals, successive, joined⟩ :=
    w.exists_offers_settle d.vetoes (d.proposed declaration owner w.generator)
  have illustrated : ∀ p ∈ offers.map Offer.proposal, p.Illustrated d.settings.keys := by
    rw [proposals]
    exact d.forall_proposedByAll _ _ _ (fun f set => d.illustrated_proposedBy _ _ _ set) _
  exact ⟨_, offers, run_addHandler_of_some found w, logged, proposals,
    List.forall_mem_map.mp illustrated, successive, joined⟩

end Documenter

namespace Sample

/-- A documenter with two vetoes, of which the second looks at the operation. -/
def counting : Documenter :=
  { documenter with
    vetoes := [VetoRule.veto { parameter := some "filter[id]", halts := true },
      VetoRule.veto { atLeast := 1, halts := true }] }

/-- The second veto decides by what was accepted before, and the handler has three parameters. -/
theorem addHandler_offers_of_counting : ∃ declaration,
    source.handler? (some "App\\Posts") "list" = some declaration ∧
    ∀ w, ∃ w' offers, (counting.addHandler source "App\\Posts" "list").run w = .ok () w' ∧
      w'.offers = w.offers ++ offers ∧
      offers.map Offer.proposal =
        (counting.proposed declaration "App\\Posts" w.generator).proposals ∧
      (∀ o ∈ offers, o.proposal.Illustrated counting.settings.keys) ∧
      Offer.Successive counting.vetoes w.operation offers ∧
      w'.operation = w.operation.append (Offer.accepted offers) := by
  have first : (source.handler? (some "App\\Posts") "list").map Code.Cursor.focus =
      some handler := by
    rw [ParsedSource.focus_handler?, ParsedSource.scope_some]
    rfl
  obtain ⟨declaration, found, -⟩ := Option.map_eq_some_iff.mp first
  exact ⟨declaration, found, Documenter.addHandler_offers found⟩

end Sample

end RouteDoc
