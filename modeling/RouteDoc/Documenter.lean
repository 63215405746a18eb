import RouteDoc.Library
import RouteDoc.Parameter.Veto
import RouteDoc.Settings.Basic

/-!
# Documenting handlers

A documenter turns a handler into parameters of an operation. It goes through the capabilities in
their order; for each that the handler switches on, it works out the allowed values, synthesises
their descriptors, and offers the parameters one by one to the vetoes.

The operation, the generator and the offers are changed in place, step by step, and a task that
fails leaves behind what it changed before it failed. That nothing is drawn or offered before the
last step that can fail is therefore a property of the tasks and not of their type.
-/

set_option autoImplicit false

namespace RouteDoc

/-- What is needed to document handlers. -/
structure Documenter where
  /-- The settings of the host. -/
  settings : Settings
  /-- Where sources come from. -/
  load : Loader
  /-- The vetoes of the host, in order. -/
  vetoes : List Veto := []
  /-- The day for examples of dates. -/
  today : Date

/-- What a documenter works on. -/
structure Documented where
  /-- The operation with the parameters so far. -/
  operation : Operation
  /-- The generator behind what was drawn. -/
  generator : Generator
  /-- The parameters that were offered, in order. -/
  offers : List Offer := []

/-- Work of a documenter. It may fail, and what was done till then stays done. -/
abbrev Task := EStateM Fault Documented Unit

/-- What a task leaves of an operation and a generator when it does not fail. -/
def Task.outcome (t : Task) (op : Operation) (g : Generator) : Except Fault Documented :=
  match t.run ⟨op, g, []⟩ with
  | .ok _ w => .ok w
  | .error e _ => .error e

namespace Documenter

/-- The generator from which a documenter draws first. -/
def generator (s : SynthesisOptions) : Generator :=
  .ofSeed (UInt64.ofNat (s.seed.getD 0))

/-- The texts among the examples of descriptors. -/
def exampleTexts (ds : List Descriptor) : List String :=
  ds.flatMap fun d => d.examples.filterMap Json.str?

/-- A feature as the vetoes see it: one without keys has the examples of its parameter as values. -/
def featureFor (f : Feature) (ds : List Descriptor) : Feature :=
  if f.capability.isPerValue then f else { f with values := exampleTexts ds }

/-- Offers a parameter to the vetoes; it joins the operation unless one of them halts it. -/
def propose (d : Documenter) (f : Feature) (p : Parameter) : Task :=
  modify fun w =>
    let o := Veto.offer d.vetoes w.operation p f
    { w with operation := Veto.after o, offers := w.offers ++ [o] }

/-- The descriptors of values. What they take from the generator is taken for good. -/
def synthesize (d : Documenter) (f : Feature) (values : List Resolved) (records : List Override) :
    EStateM Fault Documented (List Descriptor) :=
  modifyGet fun w =>
    let (ds, g) := Synthesis.synthesize d.settings.synthesis d.today f values records w.generator
    (ds, { w with generator := g })

/-- Documents the use of one capability. -/
def addCapability (d : Documenter) (handler : Code.Tree) (owner : String) (records : List Override)
    (f : Feature) : Task :=
  match BuilderCall.find? handler f.capability owner with
  | none => pure ()
  | some call => do
    let ds ← d.synthesize f (Allowed.resolve d.load call) records
    ds.forM fun x => d.propose (featureFor f ds) (.ofDescriptor x)

/-- The override records of a handler's comment. -/
def recordsFor (d : Documenter) (declaration : Code.Cursor) : List Override :=
  match ParsedSource.docAbove? declaration with
  | some raw => Override.ofComment raw d.settings.tag
  | none => []

/-- Documents a handler of a source. -/
def addHandler (d : Documenter) (u : ParsedSource) (owner method : String) : Task :=
  match u.handler? (some owner) method with
  | none => throw (.noMethod owner method)
  | some declaration =>
    let records := d.recordsFor declaration
    d.settings.features.forM (d.addCapability declaration.focus owner records)

/-- Documents the handler that an action names. -/
def addAction (d : Documenter) (action : String) : Task := do
  let h ← ofExcept (Handler.ofAction action)
  let u ← ofExcept (d.load h.className)
  d.addHandler u h.className h.method

/-- Documents a handler of a source into an operation. -/
def documentIn (d : Documenter) (op : Operation) (g : Generator) (u : ParsedSource)
    (owner method : String) : Except Fault Documented :=
  (d.addHandler u owner method).outcome op g

/-- Documents the handler that an action names into an operation. -/
def extend (d : Documenter) (op : Operation) (g : Generator) (action : String) :
    Except Fault Documented :=
  (d.addAction action).outcome op g

/-- Documents the handler that an action names into an operation of that name. -/
def document (d : Documenter) (g : Generator) (action : String) : Except Fault Documented :=
  d.extend (.named action) g action

end Documenter

end RouteDoc
