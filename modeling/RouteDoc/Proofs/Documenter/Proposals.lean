import RouteDoc.Documenter

/-!
# What a handler proposes

A task of a documenter interleaves three things: it draws from the generator, it puts parameters to
the vetoes, and it adds those that pass. This module takes them apart. `Documenter.proposed` is what
the capabilities of a handler propose, a function of the generator alone that knows neither the
vetoes nor the operation; `Documented.settle` is what the vetoes and the operation make of it.

## Main statements

* `run_addHandler_of_some`: documenting a handler that is found never fails, and settles what its
  capabilities propose.
* `run_addAction_of_split_error`, `run_addAction_of_load_error`, `run_addHandler_of_none`: the three
  ways to fail, each with everything left as it was found.
* `operation_settle`: where no veto looks at the operation, what is proposed and passes joins the
  operation behind what it has, in order.
-/

set_option autoImplicit false

namespace RouteDoc

/-! ## Proposals and what becomes of them -/

/-- A parameter that is put to the vetoes, with the feature that it comes from. -/
structure Proposal where
  /-- The parameter. -/
  parameter : Parameter
  /-- The feature. -/
  feature : Feature

/-- What an offer proposed. -/
def Offer.proposal (o : Offer) : Proposal :=
  ⟨o.parameter, o.feature⟩

/-- Proposals in order, and the generator behind what was drawn for them. -/
structure Proposed where
  /-- The proposals. -/
  proposals : List Proposal
  /-- The generator. -/
  generator : Generator

/-- The operation with parameters more. -/
def Operation.append (op : Operation) (ps : List Parameter) : Operation :=
  { op with parameters := op.parameters ++ ps }

@[simp] theorem Operation.append_nil (op : Operation) : op.append [] = op := by
  simp [append]

@[simp] theorem Operation.append_push (op : Operation) (p : Parameter) (ps : List Parameter) :
    (op.push p).append ps = op.append (p :: ps) := by
  simp [append, push]

namespace Documented

/-- What is worked on, after one proposal was put to the vetoes. -/
def put (vetoes : List Veto) (w : Documented) (p : Proposal) : Documented :=
  let o := Veto.offer vetoes w.operation p.parameter p.feature
  { w with operation := Veto.after o, offers := w.offers ++ [o] }

/-- What is worked on, after all that is proposed was put to the vetoes, one after the other. -/
def settle (w : Documented) (vetoes : List Veto) (p : Proposed) : Documented :=
  p.proposals.foldl (put vetoes) { w with generator := p.generator }

/-- Putting proposals to the vetoes leaves the generator alone: what is set there before stands
there afterwards, and nothing on the way reads it. -/
theorem foldl_put_generator (vetoes : List Veto) (ps : List Proposal) (w : Documented)
    (g : Generator) :
    ps.foldl (put vetoes) { w with generator := g } =
      { ps.foldl (put vetoes) w with generator := g } := by
  induction ps generalizing w with
  | nil => rfl
  | cons p ps ih =>
    rw [List.foldl_cons, List.foldl_cons, ← ih (put vetoes w p)]
    rfl

/-- What is proposed behind other proposals is settled after them. -/
theorem settle_append (w : Documented) (vetoes : List Veto) (p q : Proposed) :
    w.settle vetoes ⟨p.proposals ++ q.proposals, q.generator⟩ =
      (w.settle vetoes p).settle vetoes q := by
  simp only [settle, List.foldl_append, foldl_put_generator]

@[simp] theorem generator_settle (w : Documented) (vetoes : List Veto) (p : Proposed) :
    (w.settle vetoes p).generator = p.generator := by
  rw [settle, foldl_put_generator]

/-- Every proposal is offered, whatever becomes of those before it. -/
theorem offers_settle (w : Documented) (vetoes : List Veto) (p : Proposed) :
    (w.settle vetoes p).offers.map Offer.proposal =
      w.offers.map Offer.proposal ++ p.proposals := by
  obtain ⟨ps, g⟩ := p
  rw [settle, foldl_put_generator]
  induction ps generalizing w with
  | nil => simp
  | cons p ps ih =>
    rw [List.foldl_cons, ih]
    simp [put, Veto.offer, Offer.proposal]

end Documented

/-! ## Vetoes that do not look at the operation -/

/-- A veto that decides by the parameter and its feature alone. -/
def Veto.Blind (v : Veto) : Prop :=
  ∀ (op op' : Operation) (p : Parameter) (f : Feature), v op p f = v op' p f

/-- Whether all vetoes let a parameter pass that is offered to an operation. -/
def Veto.passes (vetoes : List Veto) (op : Operation) (p : Proposal) : Bool :=
  !vetoes.any fun v => v op p.parameter p.feature

/-- Among blind vetoes the operation has no say in what passes. -/
theorem Veto.passes_of_blind {vetoes : List Veto} (blind : ∀ v ∈ vetoes, v.Blind)
    (op op' : Operation) (p : Proposal) :
    Veto.passes vetoes op p = Veto.passes vetoes op' p := by
  have same : (vetoes.any fun v => v op p.parameter p.feature) =
      vetoes.any fun v => v op' p.parameter p.feature := by
    rw [Bool.eq_iff_iff, List.any_eq_true, List.any_eq_true]
    refine exists_congr fun v => and_congr_right fun hv => ?_
    rw [blind v hv op op']
  rw [Veto.passes, Veto.passes, same]

/-- The operation after one proposal: with its parameter, if all vetoes let it pass. -/
theorem Documented.operation_put (vetoes : List Veto) (w : Documented) (p : Proposal) :
    (w.put vetoes p).operation =
      if Veto.passes vetoes w.operation p then w.operation.push p.parameter
      else w.operation := by
  have halted : (Veto.offer vetoes w.operation p.parameter p.feature).halted =
      !Veto.passes vetoes w.operation p := by
    rw [Veto.halted_offer, Veto.passes, Bool.not_not]
  show Veto.after (Veto.offer vetoes w.operation p.parameter p.feature) = _
  rw [Veto.after, halted]
  cases Veto.passes vetoes w.operation p with
  | true => rfl
  | false => rfl

/-- What is proposed and passes joins the operation behind what it has, in order. The operation `op`
stands for any: blind vetoes decide the same before every one of them, which is why the parameters
that joined on the way do not matter. -/
theorem Documented.operation_settle {vetoes : List Veto} (blind : ∀ v ∈ vetoes, v.Blind)
    (op : Operation) (w : Documented) (p : Proposed) :
    (w.settle vetoes p).operation =
      w.operation.append
        ((p.proposals.filter (Veto.passes vetoes op)).map Proposal.parameter) := by
  obtain ⟨ps, g⟩ := p
  rw [settle, foldl_put_generator]
  induction ps generalizing w with
  | nil => simp
  | cons p ps ih =>
    rw [List.foldl_cons, ih, operation_put, Veto.passes_of_blind blind w.operation op,
      List.filter_cons]
    cases Veto.passes vetoes op p with
    | true => simp
    | false => simp

/-- Without vetoes all that is proposed joins the operation. -/
theorem Documented.operation_settle_nil (w : Documented) (p : Proposed) :
    (w.settle [] p).operation = w.operation.append (p.proposals.map Proposal.parameter) := by
  have blind : ∀ v ∈ ([] : List Veto), v.Blind := fun v mem => absurd mem List.not_mem_nil
  have all_pass : p.proposals.filter (Veto.passes [] w.operation) = p.proposals :=
    List.filter_eq_self.mpr fun q _ => rfl
  rw [operation_settle blind w.operation, all_pass]

/-- A veto that halts everything keeps the operation as it is, whatever the others look at. -/
theorem Documented.operation_settle_of_halts {vetoes : List Veto} {v : Veto} (mem : v ∈ vetoes)
    (halts : ∀ op p f, v op p f = true) (w : Documented) (p : Proposed) :
    (w.settle vetoes p).operation = w.operation := by
  have none_passes : ∀ op q, Veto.passes vetoes op q = false := by
    intro op q
    rw [Veto.passes, Bool.not_eq_false', List.any_eq_true]
    exact ⟨v, mem, halts _ _ _⟩
  obtain ⟨ps, g⟩ := p
  rw [settle, foldl_put_generator]
  induction ps generalizing w with
  | nil => rfl
  | cons p ps ih =>
    rw [List.foldl_cons, ih, operation_put, none_passes]
    rfl

namespace Documenter

/-! ## What capabilities propose -/

/-- What the use of one capability proposes. -/
def proposedBy (d : Documenter) (handler : Code.Tree) (owner : String) (records : List Override)
    (f : Feature) (g : Generator) : Proposed :=
  match BuilderCall.find? handler f.capability owner with
  | none => ⟨[], g⟩
  | some call =>
    let (ds, g) := Synthesis.synthesize d.settings.synthesis d.today f
      (Allowed.resolve d.load call) records g
    ⟨ds.map fun x => ⟨.ofDescriptor x, featureFor f ds⟩, g⟩

/-- What the use of several capabilities proposes, one after the other. -/
def proposedByAll (d : Documenter) (handler : Code.Tree) (owner : String)
    (records : List Override) : List Feature → Generator → Proposed
  | [], g => ⟨[], g⟩
  | f :: fs, g =>
    let p := d.proposedBy handler owner records f g
    let q := d.proposedByAll handler owner records fs p.generator
    ⟨p.proposals ++ q.proposals, q.generator⟩

/-- What a handler proposes that is declared in a source of a class. -/
def proposed (d : Documenter) (declaration : Code.Cursor) (owner : String) (g : Generator) :
    Proposed :=
  d.proposedByAll declaration.focus owner (d.recordsFor declaration) d.settings.features g

section Runs

variable (d : Documenter) (handler : Code.Tree) (owner : String) (records : List Override)

/-- What the use of a capability proposes are the descriptors that are synthesised for its call. -/
theorem exists_of_mem_proposedBy {f : Feature} {g : Generator} {p : Proposal}
    (mem : p ∈ (d.proposedBy handler owner records f g).proposals) :
    ∃ values, ∃ x ∈ (Synthesis.synthesize d.settings.synthesis d.today f values records g).1,
      p = ⟨.ofDescriptor x, featureFor f
        (Synthesis.synthesize d.settings.synthesis d.today f values records g).1⟩ := by
  unfold proposedBy at mem
  cases call : BuilderCall.find? handler f.capability owner with
  | none =>
    rw [call] at mem
    cases mem
  | some call' =>
    rw [call] at mem
    obtain ⟨x, synthesised, rfl⟩ := List.mem_map.mp mem
    exact ⟨Allowed.resolve d.load call', x, synthesised, rfl⟩

/-- What holds of all that each capability proposes, at any generator, holds of all that is
proposed. -/
theorem forall_proposedByAll {P : Proposal → Prop} {fs : List Feature}
    (each : ∀ f ∈ fs, ∀ g, ∀ p ∈ (d.proposedBy handler owner records f g).proposals, P p)
    (g : Generator) : ∀ p ∈ (d.proposedByAll handler owner records fs g).proposals, P p := by
  induction fs generalizing g with
  | nil => exact List.forall_mem_nil _
  | cons f fs ih =>
    obtain ⟨head, tail⟩ := List.forall_mem_cons.mp each
    exact List.forall_mem_append.mpr ⟨head g, ih tail _⟩

/-- The run over the descriptors of a feature: each is put to the vetoes in turn. -/
theorem run_forM_propose (f : Feature) (ds : List Descriptor) (w : Documented) :
    (ds.forM fun x => d.propose f (.ofDescriptor x)).run w =
      .ok () ((ds.map fun x => ⟨.ofDescriptor x, f⟩).foldl (Documented.put d.vetoes) w) := by
  induction ds generalizing w with
  | nil => rfl
  | cons x ds ih =>
    simp only [List.forM_eq_forM] at ih ⊢
    rw [List.forM_cons, EStateM.run_bind]
    exact ih (w.put d.vetoes ⟨.ofDescriptor x, f⟩)

/-- The use of a capability never fails, and settles what it proposes. -/
theorem run_addCapability (f : Feature) (w : Documented) :
    (d.addCapability handler owner records f).run w =
      .ok () (w.settle d.vetoes (d.proposedBy handler owner records f w.generator)) := by
  unfold addCapability proposedBy
  cases BuilderCall.find? handler f.capability owner with
  | none => rfl
  | some call => exact run_forM_propose d _ _ _

/-- The use of several capabilities never fails, and settles what they propose. -/
theorem run_forM_addCapability (fs : List Feature) (w : Documented) :
    (fs.forM (d.addCapability handler owner records)).run w =
      .ok () (w.settle d.vetoes (d.proposedByAll handler owner records fs w.generator)) := by
  induction fs generalizing w with
  | nil => rfl
  | cons f fs ih =>
    simp only [List.forM_eq_forM] at ih ⊢
    rw [List.forM_cons, EStateM.run_bind, run_addCapability]
    simp only [ih, proposedByAll, Documented.settle_append, Documented.generator_settle]

end Runs

/-! ## How documenting ends -/

/-- Documenting a handler that is found never fails, and settles what the handler proposes. -/
theorem run_addHandler_of_some {d : Documenter} {u : ParsedSource} {owner method : String}
    {declaration : Code.Cursor} (found : u.handler? (some owner) method = some declaration)
    (w : Documented) :
    (d.addHandler u owner method).run w =
      .ok () (w.settle d.vetoes (d.proposed declaration owner w.generator)) := by
  rw [addHandler, found]
  exact run_forM_addCapability d _ _ _ _ w

/-- A handler that the source does not declare is a fault, and nothing is changed. -/
theorem run_addHandler_of_none {d : Documenter} {u : ParsedSource} {owner method : String}
    (missing : u.handler? (some owner) method = none) (w : Documented) :
    (d.addHandler u owner method).run w = .error (.noMethod owner method) w := by
  rw [addHandler, missing]
  rfl

/-- An action that names no handler is a fault, and nothing is changed. -/
theorem run_addAction_of_split_error {d : Documenter} {action : String} {e : Fault}
    (split : Handler.ofAction action = .error e) (w : Documented) :
    (d.addAction action).run w = .error e w := by
  rw [addAction, split]
  rfl

/-- A class without a source is a fault, and nothing is changed. -/
theorem run_addAction_of_load_error {d : Documenter} {action : String} {h : Handler} {e : Fault}
    (split : Handler.ofAction action = .ok h) (missing : d.load h.className = .error e)
    (w : Documented) : (d.addAction action).run w = .error e w := by
  simp only [addAction, split, ofExcept, pure_bind, missing]
  rfl

/-- An action whose class has a source is documented from that source. -/
theorem run_addAction_of_load {d : Documenter} {action : String} {h : Handler} {u : ParsedSource}
    (split : Handler.ofAction action = .ok h) (loaded : d.load h.className = .ok u)
    (w : Documented) :
    (d.addAction action).run w = (d.addHandler u h.className h.method).run w := by
  simp only [addAction, split, ofExcept, pure_bind, loaded]

end Documenter

end RouteDoc
