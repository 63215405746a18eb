import Mathlib.Data.List.Forall2
import RouteDoc.Proofs.Documenter.Calls
import RouteDoc.Proofs.Documenter.Names

/-!
# Vetoes only filter

Two histories with the same actions are compared: one of a documenter, and one of the same
documenter without its vetoes. The operations at hand may differ, since what was halted before is
missing from them. As long as no veto looks at the operation, call by call the first history adds
what the second adds, less what some veto halts, and both leave the same generator; so nothing that
a veto does shows in what is drawn or proposed later.

## Main statements

* `answer_filtered`: the step, for one call on one generator. Both answers leave one generator, so
  the histories go on in step.
* `answers_filtered`: the histories; and a veto that halts everything keeps every operation as it
  is.
-/

set_option autoImplicit false

namespace RouteDoc

/-- What vetoes make of a call: `a` is the answer with them, and `b` the answer without them to a
call with the same action. -/
structure Filtered (vetoes : List Veto) (a b : Answer) : Prop where
  /-- Both calls end the same way. -/
  outcome : a.outcome = b.outcome
  /-- Both leave the same generator. -/
  generator : a.left.generator = b.left.generator
  /-- Both propose the same. -/
  offers : a.left.offers.map Offer.proposal = b.left.offers.map Offer.proposal
  /-- Without vetoes, all that is proposed joins the operation behind what it has. -/
  unvetoed : b.left.operation = b.call.operation.append (b.left.offers.map Offer.parameter)
  /-- With vetoes, that part of it joins which none of them halts. -/
  vetoed : a.left.operation = a.call.operation.append
    ((b.left.offers.filter fun o =>
      vetoes.all fun v => !v o.operation o.parameter o.feature).map Offer.parameter)

/-- A rule that does not count the parameters of the operation does not look at it. -/
theorem VetoRule.blind_veto {r : VetoRule} (any : r.atLeast = 0) : r.veto.Blind := by
  intro op op' p f
  rw [veto, veto, any, decide_eq_true op.parameters.length.zero_le,
    decide_eq_true op'.parameters.length.zero_le]

/-- The documenter without its vetoes. -/
def Documenter.unvetoed (d : Documenter) : Documenter :=
  { d with vetoes := [] }

/-- What is proposed knows nothing of the vetoes. -/
theorem Documenter.proposed_unvetoed (d : Documenter) : d.unvetoed.proposed = d.proposed := rfl

/-- Filtering offers by what blind vetoes decide is filtering what they propose. -/
theorem Veto.filter_offers {vetoes : List Veto} (blind : ∀ v ∈ vetoes, v.Blind) (op : Operation)
    (os : List Offer) :
    (os.filter fun o => vetoes.all fun v => !v o.operation o.parameter o.feature).map
        Offer.parameter =
      ((os.map Offer.proposal).filter (passes vetoes op)).map Proposal.parameter := by
  induction os with
  | nil => rfl
  | cons o os ih =>
    have same : (vetoes.all fun v => !v o.operation o.parameter o.feature) =
        passes vetoes op o.proposal := by
      rw [passes_of_blind blind op o.operation, passes, List.not_any_eq_all_not]
      rfl
    rw [List.map_cons, List.filter_cons, List.filter_cons, same]
    cases passes vetoes op o.proposal with
    | true => exact congrArg (o.parameter :: ·) ih
    | false => exact ih

namespace Documenter

/-- One call, with the vetoes and without them. -/
theorem answer_filtered {d : Documenter} (blind : ∀ v ∈ d.vetoes, v.Blind) (g : Generator)
    {c b : Call} (same : c.action = b.action) :
    Filtered d.vetoes (d.answer g c) (d.unvetoed.answer g b) := by
  rcases Handler.missing_or_declared d.load c.action with ⟨e, missing⟩ | ⟨h, u, decl, declared⟩
  · rw [answer_of_missing missing, answer_of_missing (d := d.unvetoed) (same ▸ missing)]
    exact ⟨rfl, rfl, rfl, (Operation.append_nil _).symm, (Operation.append_nil _).symm⟩
  · rw [answer_of_declared declared, answer_of_declared (d := d.unvetoed) (same ▸ declared),
      proposed_unvetoed]
    -- both settle the same proposals, from operations that may differ
    generalize d.proposed decl h.className g = p
    have offered : ∀ vetoes (op : Operation),
        ((⟨op, g, []⟩ : Documented).settle vetoes p).offers.map Offer.proposal = p.proposals :=
      fun vetoes op => Documented.offers_settle _ _ _
    refine ⟨rfl, ?_, ?_, ?_, ?_⟩
    · simp only [Documented.generator_settle]
    · rw [offered, offered]
    · rw [unvetoed, Documented.operation_settle_nil, ← offered [] b.operation, List.map_map]
      rfl
    · rw [unvetoed, Documented.operation_settle blind c.operation,
        Veto.filter_offers blind c.operation, offered]

/-- A veto that halts everything keeps the operation of a call as it is. -/
theorem answer_of_halts {d : Documenter} {v : Veto} (mem : v ∈ d.vetoes)
    (halts : ∀ op p f, v op p f = true) (g : Generator) (c : Call) :
    (d.answer g c).left.operation = (d.answer g c).call.operation := by
  rcases Handler.missing_or_declared d.load c.action with ⟨e, missing⟩ | ⟨h, u, decl, declared⟩
  · rw [answer_of_missing missing]
  · rw [answer_of_declared declared]
    exact Documented.operation_settle_of_halts mem halts _ _

/-- **Vetoes only filter.** For vetoes that do not look at the operation, every call of a history
ends as it ends without them, leaves the same generator, and adds to its operation, behind what that
has, the parameters that it adds without them, in order, less those that some veto halts. With a
veto that halts everything, no call changes its operation. -/
theorem answers_filtered {d : Documenter} (blind : ∀ v ∈ d.vetoes, v.Blind) (g : Generator)
    {calls bare : List Call} (same : calls.map Call.action = bare.map Call.action) :
    List.Forall₂ (Filtered d.vetoes) (d.answers g calls) (d.unvetoed.answers g bare) ∧
      ((∃ v ∈ d.vetoes, ∀ op p f, v op p f = true) →
        ∀ a ∈ d.answers g calls, a.left.operation = a.call.operation) := by
  constructor
  · induction calls generalizing bare g with
    | nil =>
      cases List.map_eq_nil_iff.mp same.symm
      exact .nil
    | cons c calls ih =>
      cases bare with
      | nil => cases same
      | cons b bare =>
        obtain ⟨head, tail⟩ := List.cons.inj same
        have step := answer_filtered blind g head
        refine .cons step ?_
        rw [step.generator]
        exact ih _ tail
  · rintro ⟨v, mem, halts⟩
    clear same
    induction calls generalizing g with
    | nil => exact fun a none => absurd none List.not_mem_nil
    | cons c calls ih =>
      intro a found
      rcases List.mem_cons.mp found with rfl | later
      · exact answer_of_halts mem halts g c
      · exact ih _ a later

end Documenter

namespace Sample

/-- A documenter that finds one source, and whose veto halts the filter on `id`. -/
def guarded : Documenter :=
  { documenter with
    load := fun _ => .ok source
    vetoes := [VetoRule.veto { parameter := some "filter[id]", halts := true }] }

/-- Three calls, of which the second fails. -/
def calls : List Call :=
  [.fresh "App\\Posts@list", .fresh "Posts", .fresh "Posts@list"]

/-- Calls with the same actions, into an operation without a name. -/
def namelessCalls : List Call :=
  calls.map fun c => { c with operation := {} }

/-- The operations at hand differ, and one of the calls fails on the way. -/
theorem answers_filtered_of_rule :
    (∀ v ∈ guarded.vetoes, v.Blind) ∧
    calls.map Call.action = namelessCalls.map Call.action ∧
    ∀ g, List.Forall₂ (Filtered guarded.vetoes) (guarded.answers g calls)
      (guarded.unvetoed.answers g namelessCalls) := by
  have blind : ∀ v ∈ guarded.vetoes, v.Blind :=
    List.forall_mem_singleton.mpr (VetoRule.blind_veto rfl)
  have same : calls.map Call.action = namelessCalls.map Call.action := rfl
  exact ⟨blind, same, fun g => (Documenter.answers_filtered blind g same).1⟩

end Sample

end RouteDoc
