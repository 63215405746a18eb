import RouteDoc.Proofs.Documenter.Proposals

/-!
# Calls on a documenter

A host calls one documenter many times, each time with an operation at hand, and each call finds the
generator as the call before left it. `Documenter.answers` is such a history: how every call ended,
and what it left behind, whether it failed or not.

An action can miss its handler in three ways, and `Handler.Missing` names them with the fault that
each gives: the action names no class and method, the class has no source, or the source declares no
such method.

## Main statements

* `run_addAction_of_missing`, `run_addAction_of_declared`: what a call does, in either case.
* `addAction_atomic`: a call fails exactly when the handler is missing; a call that fails changes
  nothing, so every history goes on as if that call had not been made.
-/

set_option autoImplicit false

namespace RouteDoc

/-! ## Where an action leads -/

/-- An action leads to the declaration of a handler in the source of its class. -/
structure Handler.Declared (load : Loader) (action : String) (h : Handler) (u : ParsedSource)
    (declaration : Code.Cursor) : Prop where
  /-- The action names a class and a method. -/
  split : ofAction action = .ok h
  /-- The class has a source. -/
  loaded : load h.className = .ok u
  /-- The source declares the method. -/
  found : u.handler? (some h.className) h.method = some declaration

/-- An action misses its handler, and this is the fault. -/
inductive Handler.Missing (load : Loader) (action : String) : Fault → Prop where
  /-- The action names no class and method. -/
  | split {e : Fault} (failed : ofAction action = .error e) : Missing load action e
  /-- The class has no source. -/
  | source {h : Handler} {e : Fault} (split : ofAction action = .ok h)
      (failed : load h.className = .error e) : Missing load action e
  /-- The source declares no such method. -/
  | method {h : Handler} {u : ParsedSource} (split : ofAction action = .ok h)
      (loaded : load h.className = .ok u)
      (failed : u.handler? (some h.className) h.method = none) :
      Missing load action (.noMethod h.className h.method)

/-- There is no third case. -/
theorem Handler.missing_or_declared (load : Loader) (action : String) :
    (∃ e, Missing load action e) ∨ ∃ h u declaration, Declared load action h u declaration := by
  cases split : ofAction action with
  | error e => exact .inl ⟨e, .split split⟩
  | ok h =>
    cases loaded : load h.className with
    | error e => exact .inl ⟨e, .source split loaded⟩
    | ok u =>
      cases found : u.handler? (some h.className) h.method with
      | none => exact .inl ⟨_, .method split loaded found⟩
      | some declaration => exact .inr ⟨h, u, declaration, split, loaded, found⟩

namespace Documenter

/-- A missing handler is the fault of the call, and nothing is changed. -/
theorem run_addAction_of_missing {d : Documenter} {action : String} {e : Fault}
    (missing : Handler.Missing d.load action e) (w : Documented) :
    (d.addAction action).run w = .error e w := by
  cases missing with
  | split failed => exact run_addAction_of_split_error failed w
  | source split failed => exact run_addAction_of_load_error split failed w
  | method split loaded failed =>
    rw [run_addAction_of_load split loaded]
    exact run_addHandler_of_none failed w

/-- A handler that is declared is documented: what it proposes is settled. -/
theorem run_addAction_of_declared {d : Documenter} {action : String} {h : Handler}
    {u : ParsedSource} {declaration : Code.Cursor}
    (declared : Handler.Declared d.load action h u declaration) (w : Documented) :
    (d.addAction action).run w =
      .ok () (w.settle d.vetoes (d.proposed declaration h.className w.generator)) := by
  rw [run_addAction_of_load declared.split declared.loaded]
  exact run_addHandler_of_some declared.found w

/-- Documenting an action whose handler is missing fails from every generator. -/
theorem document_of_missing {d : Documenter} {action : String} {e : Fault}
    (missing : Handler.Missing d.load action e) (g : Generator) :
    d.document g action = .error e := by
  rw [document, extend, Task.outcome, run_addAction_of_missing missing]

/-- Documenting an action whose handler is declared succeeds from every generator. -/
theorem document_of_declared {d : Documenter} {action : String} {h : Handler} {u : ParsedSource}
    {declaration : Code.Cursor} (declared : Handler.Declared d.load action h u declaration)
    (g : Generator) :
    d.document g action = .ok ((⟨.named action, g, []⟩ : Documented).settle d.vetoes
      (d.proposed declaration h.className g)) := by
  rw [document, extend, Task.outcome, run_addAction_of_declared declared]

end Documenter

/-! ## Histories of calls -/

/-- A call on a documenter. -/
structure Call where
  /-- The operation at hand. -/
  operation : Operation
  /-- The action whose handler is to be documented into it. -/
  action : String

/-- The call that documents an action into an operation of its own. -/
def Call.fresh (action : String) : Call :=
  ⟨.named action, action⟩

/-- What came of a call. -/
structure Answer where
  /-- The call. -/
  call : Call
  /-- How it ended. -/
  outcome : Except Fault Unit
  /-- What it left behind: the operation, the generator, and what was offered on the way. -/
  left : Documented

namespace Documenter

/-- The answer to a call that finds a generator. -/
def answer (d : Documenter) (g : Generator) (c : Call) : Answer :=
  match (d.addAction c.action).run ⟨c.operation, g, []⟩ with
  | .ok _ w => ⟨c, .ok (), w⟩
  | .error e w => ⟨c, .error e, w⟩

/-- The answers to calls, each of which finds the generator that the one before left. -/
def answers (d : Documenter) : Generator → List Call → List Answer
  | _, [] => []
  | g, c :: cs => d.answer g c :: d.answers (d.answer g c).left.generator cs

/-- A call that fails gives the operation back, and the generator with it. -/
theorem answer_of_missing {d : Documenter} {c : Call} {e : Fault}
    (missing : Handler.Missing d.load c.action e) (g : Generator) :
    d.answer g c = ⟨c, .error e, ⟨c.operation, g, []⟩⟩ := by
  rw [answer, run_addAction_of_missing missing]

/-- A call that succeeds gives the operation in which all that was proposed is settled. -/
theorem answer_of_declared {d : Documenter} {c : Call} {h : Handler} {u : ParsedSource}
    {declaration : Code.Cursor} (declared : Handler.Declared d.load c.action h u declaration)
    (g : Generator) :
    d.answer g c = ⟨c, .ok (), (⟨c.operation, g, []⟩ : Documented).settle d.vetoes
      (d.proposed declaration h.className g)⟩ := by
  rw [answer, run_addAction_of_declared declared]

/-- A call that misses its handler can be struck from a history: the other answers stay. -/
theorem answers_eraseIdx_of_missing {d : Documenter} {c : Call} {e : Fault}
    (missing : Handler.Missing d.load c.action e) (before after : List Call) (g : Generator) :
    (d.answers g (before ++ c :: after)).eraseIdx before.length =
      d.answers g (before ++ after) := by
  induction before generalizing g with
  | nil =>
    show d.answers (d.answer g c).left.generator after = d.answers g after
    rw [answer_of_missing missing]
  | cons b before ih =>
    show d.answer g b :: (d.answers _ (before ++ c :: after)).eraseIdx before.length = _
    rw [ih]
    rfl

/-- **Failed calls leave no trace.** A call fails exactly when the handler is missing, with the
fault that this gives, and then the operation, the generator and the offers are those it found; with
a handler it succeeds, whatever the handler holds. So the answers to all other calls of a history
are what they would have been had a failed call not been made. -/
theorem addAction_atomic (d : Documenter) (action : String) :
    (∀ w w' e, (d.addAction action).run w = .error e w' ↔
      Handler.Missing d.load action e ∧ w' = w) ∧
    ((∀ e, ¬ Handler.Missing d.load action e) →
      ∀ w, ∃ w', (d.addAction action).run w = .ok () w') ∧
    (∀ w w' e, (d.addAction action).run w = .error e w' → ∀ g before op after,
      (d.answers g (before ++ ⟨op, action⟩ :: after)).eraseIdx before.length =
        d.answers g (before ++ after)) := by
  have failed : ∀ w w' e, (d.addAction action).run w = .error e w' →
      Handler.Missing d.load action e ∧ w' = w := by
    intro w w' e run
    rcases Handler.missing_or_declared d.load action with ⟨e', missing⟩ | ⟨h, u, c, declared⟩
    · rw [run_addAction_of_missing missing] at run
      cases run
      exact ⟨missing, rfl⟩
    · rw [run_addAction_of_declared declared] at run
      cases run
  refine ⟨fun w w' e => ⟨failed w w' e, ?_⟩, ?_, ?_⟩
  · rintro ⟨missing, rfl⟩
    exact run_addAction_of_missing missing w'
  · intro present w
    rcases Handler.missing_or_declared d.load action with ⟨e, missing⟩ | ⟨h, u, c, declared⟩
    · exact absurd missing (present e)
    · exact ⟨_, run_addAction_of_declared declared w⟩
  · intro w w' e run g before op after
    exact answers_eraseIdx_of_missing (failed w w' e run).1 before after g

end Documenter

end RouteDoc
