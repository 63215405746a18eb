import RouteDoc.Capability
import RouteDoc.Parameter.Operation

/-!
# Vetoes

Before a parameter joins an operation it is offered to the vetoes of the host, in their order, until
one of them halts it. A veto sees the operation so far, the parameter and the feature it comes from.

## Main statements

* `halted_offer`: an offer is halted exactly when some veto halts the parameter.
-/

set_option autoImplicit false

namespace RouteDoc

/-- Decides whether a parameter is halted. -/
abbrev Veto := Operation → Parameter → Feature → Bool

/-- A parameter that was offered to the vetoes. -/
structure Offer where
  /-- The operation at that moment. -/
  operation : Operation
  /-- The parameter. -/
  parameter : Parameter
  /-- The feature it comes from. -/
  feature : Feature
  /-- How many vetoes were asked: all of them, or those up to the one that halted it. -/
  asked : Nat
  /-- Whether one of them halted it. -/
  halted : Bool

namespace Veto

/-- How many vetoes are asked, and whether one of them halts the parameter. -/
def ask (op : Operation) (p : Parameter) (f : Feature) : List Veto → Nat × Bool
  | [] => (0, false)
  | v :: vs =>
    if v op p f then (1, true)
    else
      let (n, halted) := ask op p f vs
      (n + 1, halted)

/-- Offers a parameter to the vetoes. -/
def offer (vetoes : List Veto) (op : Operation) (p : Parameter) (f : Feature) : Offer :=
  let (asked, halted) := ask op p f vetoes
  ⟨op, p, f, asked, halted⟩

/-- The operation after an offer: with the parameter unless it was halted. -/
def after (o : Offer) : Operation :=
  if o.halted then o.operation else o.operation.push o.parameter

/-- An offer is halted exactly when some veto halts the parameter. -/
theorem halted_offer (vetoes : List Veto) (op : Operation) (p : Parameter) (f : Feature) :
    (offer vetoes op p f).halted = vetoes.any fun v => v op p f := by
  simp only [offer]
  induction vetoes with
  | nil => rfl
  | cons v vs ih => cases h : v op p f <;> simp [ask, h, ih]

end Veto

/-- A veto by rule: it halts a parameter when all its conditions hold. A condition that is absent
always holds. -/
structure VetoRule where
  /-- The name that the parameter has. -/
  parameter : Option String := none
  /-- The name of the capability that the feature has. -/
  capability : Option String := none
  /-- The name of the type that the parameter has. -/
  valueType : Option String := none
  /-- How many parameters the operation has at least. -/
  atLeast : Nat := 0
  /-- Whether the rule halts anything. -/
  halts : Bool := false
deriving DecidableEq, Repr

/-- The veto of a rule. -/
def VetoRule.veto (r : VetoRule) : Veto := fun op p f =>
  r.halts && r.parameter.all (· == p.name) && r.capability.all (· == f.capability.name) &&
    r.valueType.all (· == p.schema.valueType.name) && decide (r.atLeast ≤ op.parameters.length)

end RouteDoc
