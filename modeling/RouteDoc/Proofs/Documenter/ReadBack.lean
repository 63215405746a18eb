import RouteDoc.Proofs.Documenter.Calls
import RouteDoc.Proofs.Documenter.Names
import RouteDoc.Proofs.Parameter.ReadBack
import RouteDoc.Proofs.Synthesis.Keys

/-!
# Reading back what was documented

The one thing that a written operation does not keep is an example that is null. None is ever
documented: what is guessed has an example that is not null, a record that is merged takes it away
or puts a text in its place, and neither the layout as a parameter nor the vetoes make another.

## Main statements

* `Synthesis.nullFree_synthesize`: no synthesised descriptor has an example that is null.
* `Documented.forall_settle`: what holds of the parameters of an operation and of all that is
  proposed holds of the parameters afterwards, whatever the vetoes say.
* `Documenter.readBack_iff_nullFree`: operations and descriptors are read back exactly when they
  have no such example, and every operation that is documented is read back.
-/

set_option autoImplicit false

namespace RouteDoc

/-! ## Descriptors -/

namespace Descriptor.NullFree

variable {d : Descriptor}

/-- A description does not touch the example. -/
theorem redescribe (h : d.NullFree) (text : Option String) : (d.redescribe text).NullFree := by
  cases text with
  | none => exact h
  | some text => exact h

/-- Examples that a record gives are texts. -/
theorem setExamples (h : d.NullFree) (examples : List String) :
    (d.setExamples examples).NullFree := by
  cases examples with
  | nil => exact h
  | cons e es => exact nofun

/-- A record that is merged takes the example away, puts a text in its place, or leaves it. -/
theorem merge (h : d.NullFree) (r : Override) : (d.merge r).NullFree := by
  refine setExamples (redescribe ?_ r.description) r.examples
  cases r.typeName.bind ValueType.ofName? with
  | none => exact h
  | some t => exact nofun

end Descriptor.NullFree

namespace Synthesis

variable (today : Date) (key : String) (records : List Override)

/-- What is shown of a guess is a text, a number or a truth value. -/
theorem sample_ne_null (g : Generator) (guess : Guess) : (sample today g guess).1 ≠ .null := by
  cases guess with
  | date => exact nofun
  | text => exact nofun
  | identifier => simp [sample]
  | flag => simp [sample]

/-- What is guessed for a value has an example that is not null. -/
theorem nullFree_guessed (name : String) (g : Generator) :
    (guessed today key name g).1.NullFree := fun null =>
  sample_ne_null today g (Guess.ofName name) (Option.some.inj null)

/-- A set of examples has texts for its examples. -/
theorem nullFree_withExamples (description : String) (examples : List String) :
    (withExamples key description examples).NullFree := by
  cases examples with
  | nil => exact nofun
  | cons e es => exact nofun

/-- No synthesised descriptor has an example that is null. -/
theorem nullFree_synthesize (options : SynthesisOptions) (f : Feature) (values : List Resolved)
    (g : Generator) : ∀ d ∈ (synthesize options today f values records g).1, d.NullFree :=
  forall_synthesize today records (fun _ r h => h.merge r) (nullFree_guessed today f.key)
    (nullFree_withExamples f.key) options values g

end Synthesis

/-! ## Parameters and operations -/

/-- A parameter shows the example of its descriptor, and none of its own. -/
theorem Descriptor.NullFree.ofDescriptor {d : Descriptor} (h : d.NullFree) :
    (Parameter.ofDescriptor d).NullFree := by
  refine ⟨h, ?_⟩
  show (if d.examples.isEmpty then d.example? else none) ≠ some Json.null
  split
  · exact h
  · exact nofun

namespace Documented

/-- What holds of the parameters of an operation and of what is proposed holds of them after one
proposal was put to the vetoes. -/
theorem forall_put {P : Parameter → Prop} (w : Documented) {q : Proposal}
    (before : ∀ p ∈ w.operation.parameters, P p) (proposed : P q.parameter)
    (vetoes : List Veto) : ∀ p ∈ (w.put vetoes q).operation.parameters, P p := by
  rw [operation_put]
  split
  · rw [Operation.parameters_push, List.forall_mem_append]
    exact ⟨before, List.forall_mem_singleton.mpr proposed⟩
  · exact before

/-- The same after all that is proposed was put to the vetoes. -/
theorem forall_settle {P : Parameter → Prop} (w : Documented) {proposed : Proposed}
    (before : ∀ p ∈ w.operation.parameters, P p) (each : ∀ q ∈ proposed.proposals, P q.parameter)
    (vetoes : List Veto) : ∀ p ∈ (w.settle vetoes proposed).operation.parameters, P p := by
  obtain ⟨qs, g⟩ := proposed
  rw [settle, foldl_put_generator]
  replace each : ∀ q ∈ qs, P q.parameter := each
  induction qs generalizing w with
  | nil => exact before
  | cons q qs ih =>
    obtain ⟨first, rest⟩ := List.forall_mem_cons.mp each
    exact ih (w.put vetoes q) (w.forall_put before first vetoes) rest

end Documented

namespace Documenter

variable (d : Documenter) (handler : Code.Tree) (owner : String) (records : List Override)

/-- Nothing that is proposed for a feature has a null example. -/
theorem nullFree_proposedBy (f : Feature) (g : Generator) :
    ∀ q ∈ (d.proposedBy handler owner records f g).proposals, q.parameter.NullFree := by
  intro q mem
  obtain ⟨values, x, synthesised, rfl⟩ := d.exists_of_mem_proposedBy handler owner records mem
  exact (Synthesis.nullFree_synthesize d.today records _ f values g x synthesised).ofDescriptor

/-- Nothing that is proposed for a handler has a null example. -/
theorem nullFree_proposedByAll (fs : List Feature) (g : Generator) :
    ∀ q ∈ (d.proposedByAll handler owner records fs g).proposals, q.parameter.NullFree :=
  d.forall_proposedByAll handler owner records
    (fun f _ g => nullFree_proposedBy d handler owner records f g) g

/-- Documenting into an operation puts no example there that is null. -/
theorem nullFree_extend {d : Documenter} {op : Operation} {g : Generator} {action : String}
    {w : Documented} (before : op.NullFree) (done : d.extend op g action = .ok w) :
    w.operation.NullFree := by
  rw [extend, Task.outcome] at done
  rcases Handler.missing_or_declared d.load action with ⟨e, missing⟩ | ⟨h, u, decl, declared⟩
  · rw [run_addAction_of_missing missing] at done
    cases done
  · rw [run_addAction_of_declared declared] at done
    cases done
    exact Documented.forall_settle (P := Parameter.NullFree) ⟨op, g, []⟩ before
      (nullFree_proposedByAll d _ _ _ _ g) d.vetoes

/-- **Reading undoes writing.** What is written of an operation is read back exactly when none of
its parameters, nor the schema of one, has an example that is null; every operation that is read
from any JSON value is such, so that reading what is written of it gives it again. The same holds of
descriptors. And every operation that is documented is such. -/
theorem readBack_iff_nullFree :
    (∀ op : Operation, Operation.ofJson? op.toJson = some op ↔ op.NullFree) ∧
    (∀ (v : Json) (op : Operation), Operation.ofJson? v = some op →
      op.NullFree ∧ Operation.ofJson? op.toJson = some op) ∧
    (∀ x : Descriptor, Descriptor.ofJson? x.toJson = some x ↔ x.NullFree) ∧
    (∀ (v : Json) (x : Descriptor), Descriptor.ofJson? v = some x →
      x.NullFree ∧ Descriptor.ofJson? x.toJson = some x) ∧
    ∀ (d : Documenter) (g : Generator) (action : String) (w : Documented),
      d.document g action = .ok w →
        w.operation.NullFree ∧ Operation.ofJson? w.operation.toJson = some w.operation := by
  refine ⟨Operation.faithful.read_write_iff, ?_, Descriptor.faithful.read_write_iff, ?_, ?_⟩
  · intro v op read
    exact ⟨Operation.faithful.fit v op read, Operation.faithful.read_again read⟩
  · intro v x read
    exact ⟨Descriptor.faithful.fit v x read, Descriptor.faithful.read_again read⟩
  · intro d g action w done
    have none_before : (Operation.named action).NullFree := List.forall_mem_nil _
    have nullFree := nullFree_extend none_before done
    exact ⟨nullFree, Operation.faithful.read_write w.operation nullFree⟩

end Documenter

namespace Sample

/-- A documenter that finds one source for every class. -/
def informed : Documenter :=
  { documenter with load := fun _ => .ok source }

/-- An operation without a name, whose parameter has a null among the examples. -/
def nullable : Operation where
  parameters := [{
    name := "filter[id]"
    location := "query"
    example? := some (.int 7)
    schema := { valueType := .integer, examples := [.null, .int 7] } }]

/-- An operation written by hand: its fields in order, and in it a parameter by members, one of them
unknown, with an example that is null. -/
def written : Json :=
  .arr [.str "list", .arr [.obj [("in", .str "query"), ("required", .bool true),
    ("example", .null), ("schema", .arr [.str "string"]), ("name", .str "sort")]]]

/-- A descriptor with examples and values. -/
def sorted : Descriptor where
  key := "sort"
  valueType := .string
  example? := some (.str "-id")
  examples := [.str "-id", .null]
  enumValues := some []

/-- A null within a set of examples is kept, a null for an example is read as absent, and from the
handler of a source comes an operation that is read back. -/
theorem readBack_of_nullable :
    nullable.NullFree ∧ Operation.ofJson? nullable.toJson = some nullable ∧
    (∃ op, Operation.ofJson? written = some op ∧ Operation.ofJson? op.toJson = some op) ∧
    sorted.NullFree ∧ Descriptor.ofJson? sorted.toJson = some sorted ∧
    ∀ g, ∃ w, informed.document g "App\\Posts@list" = .ok w ∧
      Operation.ofJson? w.operation.toJson = some w.operation := by
  obtain ⟨operation, again, descriptor, -, documented⟩ := Documenter.readBack_iff_nullFree
  have nullable_free : nullable.NullFree := List.forall_mem_singleton.mpr ⟨nofun, nofun⟩
  have sorted_free : sorted.NullFree := nofun
  obtain ⟨op, read⟩ : ∃ op, Operation.ofJson? written = some op := ⟨_, rfl⟩
  have declares : (source.handler? (some "App\\Posts") "list").map Code.Cursor.focus =
      some handler := by
    rw [ParsedSource.focus_handler?, ParsedSource.scope_some]
    rfl
  obtain ⟨declaration, found, -⟩ := Option.map_eq_some_iff.mp declares
  have declared : Handler.Declared informed.load "App\\Posts@list" ⟨"App\\Posts", "list"⟩ source
      declaration := ⟨rfl, rfl, found⟩
  refine ⟨nullable_free, (operation nullable).mpr nullable_free,
    ⟨op, read, (again written op read).2⟩, sorted_free, (descriptor sorted).mpr sorted_free,
    fun g => ⟨_, Documenter.document_of_declared declared g, ?_⟩⟩
  exact (documented informed g _ _ (Documenter.document_of_declared declared g)).2

end Sample

end RouteDoc
