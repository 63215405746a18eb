import Mathlib.Data.List.Nodup
import RouteDoc.Command.Basic
import RouteDoc.Proofs.Documenter.Alike

/-!
# Actions do not meddle with each other

One run documents many actions with one generator, and an action finds the generator where the
actions before it left it. Nothing but that is carried from one action to the next, and an action
either fails at every generator or at none; so a run over a list is told by runs over single
actions.

## Main statements

* `documentAll_of_documentable`: while actions can be documented, the run goes on, and keeps that
  the operations so far document exactly the actions so far.
* `documentAll_of_failing`: the run ends with the first action that fails, and with its fault.
* `documentActions_independent`: what the two make of a command, with the same command for a single
  action as the measure.
-/

set_option autoImplicit false

namespace RouteDoc.Command

/-! ## Operations by action -/

/-- The key of an operation that is set joins the others, unless it is there already. -/
theorem keys_setOperation (ops : Operations) (a : String) (op : Operation) :
    (setOperation ops a op).map Prod.fst =
      if a ∈ ops.map Prod.fst then ops.map Prod.fst else ops.map Prod.fst ++ [a] := by
  have known : (ops.any fun o => o.1 == a) = true ↔ a ∈ ops.map Prod.fst := by
    simp only [List.any_eq_true, beq_iff_eq, List.mem_map]
  unfold setOperation
  by_cases mem : a ∈ ops.map Prod.fst
  · rw [if_pos (known.mpr mem), if_pos mem, List.map_map]
    refine List.map_congr_left fun o _ => ?_
    by_cases same : o.1 = a
    · simp [same]
    · simp [same]
  · rw [if_neg (mt known.mp mem), if_neg mem, List.map_append]
    rfl

/-- An entry is the one that was set, or it was there before. -/
theorem mem_setOperation {ops : Operations} {a b : String} {op o : Operation}
    (mem : (b, o) ∈ setOperation ops a op) : (b, o) = (a, op) ∨ (b, o) ∈ ops := by
  unfold setOperation at mem
  split at mem
  · obtain ⟨old, there, same⟩ := List.mem_map.mp mem
    split at same
    · exact .inl same.symm
    · exact .inr (same ▸ there)
  · rcases List.mem_append.mp mem with there | set
    · exact .inr there
    · exact .inl (List.mem_singleton.mp set)

/-- The operations document exactly these actions, each as it is documented alone from any
generator. -/
structure Documents (d : Documenter) (actions : List String) (ops : Operations) : Prop where
  /-- No action has two operations. -/
  nodup : (ops.map Prod.fst).Nodup
  /-- The actions are these. -/
  keys : ∀ a, a ∈ ops.map Prod.fst ↔ a ∈ actions
  /-- Each operation is like that of the action alone. -/
  alike : ∀ a op, (a, op) ∈ ops →
    ∀ g, ∃ r, d.document g a = .ok r ∧ Operation.Alike d.settings op r.operation

theorem Documents.nil (d : Documenter) : Documents d [] [] where
  nodup := .nil
  keys _ := .rfl
  alike _ _ none := absurd none List.not_mem_nil

/-- The operation of one action more, also of one that has an operation already. -/
theorem Documents.set {d : Documenter} {seen : List String} {ops : Operations} {a : String}
    {op : Operation} (h : Documents d seen ops)
    (alike : ∀ g, ∃ r, d.document g a = .ok r ∧ Operation.Alike d.settings op r.operation) :
    Documents d (seen ++ [a]) (setOperation ops a op) := by
  refine ⟨?_, fun b => ?_, fun b o mem => ?_⟩
  · rw [keys_setOperation]
    split
    next => exact h.nodup
    next fresh =>
      refine List.Nodup.append h.nodup (List.nodup_singleton a) ?_
      exact List.disjoint_singleton.mpr fresh
  · rw [keys_setOperation, List.mem_append, List.mem_singleton, ← h.keys]
    split
    next known =>
      refine ⟨.inl, ?_⟩
      rintro (there | rfl)
      · exact there
      · exact known
    next => rw [List.mem_append, List.mem_singleton]
  · rcases mem_setOperation mem with set | there
    · cases set
      exact alike
    · exact h.alike b o there

/-! ## Runs over lists of actions -/

/-- An action that is documented, whatever the generator is. -/
def Documentable (d : Documenter) (a : String) : Prop :=
  ∀ g, ∃ r, d.document g a = .ok r

/-- An action that fails with the same fault, whatever the generator is. -/
def Failing (d : Documenter) (a : String) (e : Fault) : Prop :=
  ∀ g, d.document g a = .error e

/-- While actions can be documented, the run goes on, and the operations so far document exactly the
actions so far. The induction is over any generator, since each action moves it on. -/
theorem documentAll_of_documentable {d : Documenter} (unvetoed : d.vetoes = [])
    {actions seen : List String} {ops : Operations}
    (documentable : ∀ a ∈ actions, Documentable d a) (h : Documents d seen ops) (g : Generator) :
    ∃ ops', documentAll d actions g ops = .ok ops' ∧ Documents d (seen ++ actions) ops' := by
  induction actions generalizing seen ops g with
  | nil => exact ⟨ops, rfl, (List.append_nil seen).symm ▸ h⟩
  | cons a actions ih =>
    rcases d.document_cases unvetoed a with ⟨e, failing⟩ | ⟨r, documented, alike⟩
    · obtain ⟨r, documented⟩ := documentable a List.mem_cons_self g
      rw [failing g] at documented
      cases documented
    · have step : Documents d (seen ++ [a]) (setOperation ops a (r g).operation) :=
        h.set fun g' => ⟨r g', documented g', alike g g'⟩
      obtain ⟨ops', run, after⟩ :=
        ih (fun b mem => documentable b (List.mem_cons_of_mem a mem)) step (r g).generator
      refine ⟨ops', ?_, ?_⟩
      · rw [documentAll, documented g]
        exact run
      · rw [List.append_cons]
        exact after

/-- The run ends with the first action that fails, and with its fault. -/
theorem documentAll_of_failing {d : Documenter} {before : List String} {a : String} {e : Fault}
    (documentable : ∀ b ∈ before, Documentable d b) (failing : Failing d a e)
    (after : List String) (g : Generator) (ops : Operations) :
    documentAll d (before ++ a :: after) g ops =
      .error (.ofFault ("Failed to document " ++ a) e) := by
  induction before generalizing g ops with
  | nil => rw [List.nil_append, documentAll, failing g]
  | cons b before ih =>
    obtain ⟨r, documented⟩ := documentable b List.mem_cons_self g
    rw [List.cons_append, documentAll, documented]
    exact ih (fun c mem => documentable c (List.mem_cons_of_mem b mem)) _ _

/-- Either all actions can be documented, or there is a first one that fails. -/
theorem documentable_or_first_failing {d : Documenter} (unvetoed : d.vetoes = [])
    (actions : List String) :
    (∀ a ∈ actions, Documentable d a) ∨
      ∃ before a after e, actions = before ++ a :: after ∧
        (∀ b ∈ before, Documentable d b) ∧ Failing d a e := by
  induction actions with
  | nil => exact .inl fun a none => absurd none List.not_mem_nil
  | cons a actions ih =>
    rcases d.document_cases unvetoed a with ⟨e, failing⟩ | ⟨r, documented, -⟩
    · exact .inr ⟨[], a, actions, e, rfl, fun b none => absurd none List.not_mem_nil, failing⟩
    · have head : Documentable d a := fun g => ⟨r g, documented g⟩
      rcases ih with all | ⟨before, b, after, e, rfl, documentable, failing⟩
      · exact .inl (List.forall_mem_cons.mpr ⟨head, all⟩)
      · exact .inr ⟨a :: before, b, after, e, rfl,
          List.forall_mem_cons.mpr ⟨head, documentable⟩, failing⟩

/-! ## The command -/

section Command

variable {s : Settings} (files : FileSystem) (base : String) (today : Date)

/-- The documenter of the command. -/
def documenterOf (s : Settings) (files : FileSystem) (base : String) (today : Date) : Documenter :=
  { settings := s, load := Autoload.load files base s.autoload, today }

/-- With roots, the command is a run of its documenter from no operations. -/
theorem documentActions_of_rooted (rooted : s.autoload ≠ []) (g : Generator)
    (actions : List String) :
    documentActions s files base today g actions =
      documentAll (documenterOf s files base today) actions g [] := by
  rw [documentActions, if_neg (by rwa [List.isEmpty_iff])]
  rfl

/-- The command for a single action that can be documented. -/
theorem documentActions_single_of_ok (rooted : s.autoload ≠ []) {g : Generator} {a : String}
    {r : Documented} (documented : (documenterOf s files base today).document g a = .ok r) :
    documentActions s files base today g [a] = .ok [(a, r.operation)] := by
  rw [documentActions_of_rooted files base today rooted, documentAll, documented]
  rfl

/-- The command for a single action that fails. -/
theorem documentActions_single_of_error (rooted : s.autoload ≠ []) {g : Generator} {a : String}
    {e : Fault} (failed : (documenterOf s files base today).document g a = .error e) :
    documentActions s files base today g [a] =
      .error (.ofFault ("Failed to document " ++ a) e) := by
  rw [documentActions_of_rooted files base today rooted, documentAll, failed]

/-- An action can be documented when the command for it alone succeeds from some generator. -/
theorem documentable_iff (rooted : s.autoload ≠ []) (g : Generator) (a : String) :
    Documentable (documenterOf s files base today) a ↔
      ∃ ops, documentActions s files base today g [a] = .ok ops := by
  refine ⟨fun documentable => ?_, fun ⟨ops, run⟩ => ?_⟩
  · obtain ⟨r, documented⟩ := documentable g
    exact ⟨_, documentActions_single_of_ok files base today rooted documented⟩
  · rcases (documenterOf s files base today).document_cases rfl a with
      ⟨e, failing⟩ | ⟨r, documented, -⟩
    · rw [documentActions_single_of_error files base today rooted (failing g)] at run
      cases run
    · exact fun g' => ⟨r g', documented g'⟩

/-- An action fails when the command for it alone fails from some generator. -/
theorem failing_of_single (rooted : s.autoload ≠ []) {g : Generator} {a : String} {f : Failure}
    (run : documentActions s files base today g [a] = .error f) :
    ∃ e, Failing (documenterOf s files base today) a e ∧
      f = .ofFault ("Failed to document " ++ a) e := by
  rcases (documenterOf s files base today).document_cases rfl a with
    ⟨e, failing⟩ | ⟨r, documented, -⟩
  · rw [documentActions_single_of_error files base today rooted (failing g)] at run
    cases run
    exact ⟨e, failing, rfl⟩
  · rw [documentActions_single_of_ok files base today rooted (documented g)] at run
    cases run

/-- A split at the first action that fails alone is where the command for the list ends. -/
theorem documentActions_of_first_failing (rooted : s.autoload ≠ []) (g : Generator)
    (starts : String → Generator) {before : List String} {a : String} {f : Failure}
    (succeed : ∀ b ∈ before, ∃ ops, documentActions s files base today (starts b) [b] = .ok ops)
    (failed : documentActions s files base today (starts a) [a] = .error f)
    (after : List String) :
    documentActions s files base today g (before ++ a :: after) = .error f := by
  have documentable : ∀ b ∈ before, Documentable (documenterOf s files base today) b :=
    fun b mem => (documentable_iff files base today rooted (starts b) b).mpr (succeed b mem)
  obtain ⟨e, failing, rfl⟩ := failing_of_single files base today rooted failed
  rw [documentActions_of_rooted files base today rooted]
  exact documentAll_of_failing documentable failing after g []

/-- The command for a list either succeeds, as it does for each action alone, or ends at the first
action for which it fails alone. -/
theorem documentActions_cases (rooted : s.autoload ≠ []) (g : Generator)
    (starts : String → Generator) (actions : List String) :
    ((∀ a ∈ actions, ∃ ops, documentActions s files base today (starts a) [a] = .ok ops) ∧
      ∃ ops, documentActions s files base today g actions = .ok ops ∧
        Documents (documenterOf s files base today) actions ops) ∨
    ∃ before a after f, actions = before ++ a :: after ∧
      (∀ b ∈ before, ∃ ops, documentActions s files base today (starts b) [b] = .ok ops) ∧
      documentActions s files base today (starts a) [a] = .error f ∧
      documentActions s files base today g actions = .error f := by
  have single : ∀ a, Documentable (documenterOf s files base today) a →
      ∃ ops, documentActions s files base today (starts a) [a] = .ok ops :=
    fun a => (documentable_iff files base today rooted (starts a) a).mp
  rcases documentable_or_first_failing (d := documenterOf s files base today) rfl actions with
    all | ⟨before, a, after, e, rfl, documentable, failing⟩
  · obtain ⟨ops, run, documents⟩ := documentAll_of_documentable rfl all (Documents.nil _) g
    refine .inl ⟨fun a mem => single a (all a mem), ops, ?_, documents⟩
    rw [documentActions_of_rooted files base today rooted, run]
  · have succeed := fun b mem => single b (documentable b mem)
    have failed := documentActions_single_of_error files base today rooted (failing (starts a))
    exact .inr ⟨before, a, after, _, rfl, succeed, failed,
      documentActions_of_first_failing files base today rooted g starts succeed failed after⟩

/-- **Actions are documented independently.** Where a class can be looked for at all, documenting a
list of actions succeeds exactly when documenting each of them alone does; it fails exactly with the
failure of the first that fails alone. When it succeeds, the keys of the answer are the actions,
each of them once, and the operation of each is that of the action alone but for what the settings
leave to chance. Each action alone may start from a generator of its own. -/
theorem documentActions_independent (rooted : s.autoload ≠ []) (g : Generator)
    (starts : String → Generator) (actions : List String) :
    let alone := fun a => documentActions s files base today (starts a) [a]
    ((∃ ops, documentActions s files base today g actions = .ok ops) ↔
      ∀ a ∈ actions, ∃ ops, alone a = .ok ops) ∧
    (∀ f, documentActions s files base today g actions = .error f ↔
      ∃ before a after, actions = before ++ a :: after ∧
        (∀ b ∈ before, ∃ ops, alone b = .ok ops) ∧ alone a = .error f) ∧
    (∀ ops, documentActions s files base today g actions = .ok ops →
      (ops.map Prod.fst).Nodup ∧ (∀ a, a ∈ ops.map Prod.fst ↔ a ∈ actions) ∧
      ∀ a op, (a, op) ∈ ops →
        ∃ op', alone a = .ok [(a, op')] ∧ Operation.Alike s op op') := by
  intro alone
  rcases documentActions_cases files base today rooted g starts actions with
    ⟨succeed, ops, run, documents⟩ | ⟨before, a, after, f, rfl, succeed, failed, run⟩
  · rw [run]
    refine ⟨⟨fun _ => succeed, fun _ => ⟨ops, rfl⟩⟩, fun f => ⟨fun failed => (nomatch failed), ?_⟩,
      ?_⟩
    · rintro ⟨before, a, after, rfl, -, failed⟩
      obtain ⟨ops, succeeded⟩ := succeed a List.mem_append_cons_self
      cases failed.symm.trans succeeded
    · rintro _ ⟨⟩
      refine ⟨documents.nodup, documents.keys, fun a op mem => ?_⟩
      obtain ⟨r, documented, alike⟩ := documents.alike a op mem (starts a)
      exact ⟨r.operation, documentActions_single_of_ok files base today rooted documented, alike⟩
  · refine ⟨⟨fun ⟨ops, succeeded⟩ => ?_, fun all => ?_⟩, fun f' => ⟨fun run' => ?_, ?_⟩,
      fun ops succeeded => ?_⟩
    · cases run.symm.trans succeeded
    · obtain ⟨ops, succeeded⟩ := all a List.mem_append_cons_self
      cases failed.symm.trans succeeded
    · cases run.symm.trans run'
      exact ⟨before, a, after, rfl, succeed, failed⟩
    · -- whatever split is given, the run ends there, and it ends once
      rintro ⟨before', a', after', same, succeed', failed'⟩
      rw [same]
      exact documentActions_of_first_failing files base today rooted g starts succeed' failed'
        after'
    · cases run.symm.trans succeeded

end Command

/-! ## A class in a file -/

namespace Sample

/-- Settings with one root. -/
def settings : Settings where
  autoload := [⟨"App\\", "src"⟩]

/-- Files with one class below the root, whose handler allows one filter. -/
def files : FileSystem where
  root := .directory [("src", .directory [("A.php", .file
    ("<?php class A\x7bfunction f()\x7b$q->allowedFilters('id');\x7d\x7d".toList.map
      fun c => UInt8.ofNat c.toNat))])]

/-- An action that names this handler. -/
def action : String := "App\\A@f"

/-- The sample action names a handler that is declared, whatever day it is. -/
theorem declared (today : Date) : ∃ u declaration,
    Handler.Declared (documenterOf settings files "" today).load action ⟨"App\\A", "f"⟩ u
      declaration := by
  have found : ((Autoload.load files "" settings.autoload "App\\A").toOption.any fun u =>
      (u.handler? (some "App\\A") "f").isSome) = true := by decide +kernel
  cases loaded : Autoload.load files "" settings.autoload "App\\A" with
  | error e =>
    rw [loaded] at found
    cases found
  | ok u =>
    rw [loaded] at found
    obtain ⟨declaration, found⟩ := Option.isSome_iff_exists.mp found
    exact ⟨u, declaration, by decide +kernel, loaded, found⟩

/-- An action that is given twice gets one operation, and it is that of the action alone, from
whatever generator, but for the identifier that is drawn. -/
theorem documentActions_independent_of_file :
    settings.autoload ≠ [] ∧ ∀ today g g', ∃ ops,
      documentActions settings files "" today g [action, action] = .ok ops ∧
      (ops.map Prod.fst).Nodup ∧ ∀ a op, (a, op) ∈ ops → ∃ op',
        documentActions settings files "" today g' [a] = .ok [(a, op')] ∧
        Operation.Alike settings op op' := by
  have rooted : settings.autoload ≠ [] := List.cons_ne_nil _ _
  refine ⟨rooted, fun today g g' => ?_⟩
  obtain ⟨u, declaration, declared⟩ := declared today
  obtain ⟨succeeds, -, answers⟩ :=
    documentActions_independent files "" today rooted g (fun _ => g') [action, action]
  have alone := documentActions_single_of_ok files "" today rooted
    (Documenter.document_of_declared declared g')
  have all_alone : ∀ a ∈ [action, action],
      ∃ ops, documentActions settings files "" today g' [a] = .ok ops := by
    rw [List.forall_mem_cons, List.forall_mem_singleton]
    exact ⟨⟨_, alone⟩, _, alone⟩
  obtain ⟨ops, run⟩ := succeeds.mpr all_alone
  obtain ⟨nodup, -, alike⟩ := answers ops run
  exact ⟨ops, run, nodup, alike⟩

end Sample

end RouteDoc.Command
