import RouteDoc.Proofs.Documenter.Proposals
import RouteDoc.Proofs.Source.Search
import RouteDoc.Proofs.Synthesis.Keys

/-!
# Names of the parameters of a handler

Which parameters a handler gets can be told from its code and from the settings, without carrying
anything out. `namesFrom` reads the names that one capability contributes off the builder call: none
without a call, the query key itself for inclusion and sorting, and a name for each value that the
call allows for filters and fields.

## Main statements

* `addHandler_names`: documenting a handler that is found succeeds, and without vetoes the names of
  the parameters that join the operation are those of inclusion, of the filters, of sorting and of
  the fields, in this order.
-/

set_option autoImplicit false

namespace RouteDoc

/-- The names among resolved values, in order. A value without a name is left out, or stands under
the placeholder where such values are documented too. -/
def Resolved.nameAll (documentUnsupported : Bool) : List Resolved → List String
  | [] => []
  | name s :: vs => s :: nameAll documentUnsupported vs
  | unsupported :: vs =>
    if documentUnsupported then placeholder :: nameAll documentUnsupported vs
    else nameAll documentUnsupported vs

/-- The names of the parameters that one capability contributes to the documentation of a handler.
The seed, the day and the records of a comment have no place in it. -/
def namesFrom (keys : QueryKeys) (documentUnsupported : Bool) (load : Loader)
    (handler : Code.Tree) (owner : String) (c : Capability) : List String :=
  match BuilderCall.find? handler c owner with
  | none => []
  | some call =>
    if c.isPerValue then
      (Resolved.nameAll documentUnsupported (Allowed.resolve load call)).map fun v =>
        keys.keyOf c ++ "[" ++ v ++ "]"
    else [keys.keyOf c]

/-- The synthesis names the values that are supported, and the others if they are documented too. -/
theorem Synthesis.names_eq_nameAll (options : SynthesisOptions) (values : List Resolved) :
    names options values = Resolved.nameAll options.emitUnsupported values := by
  unfold names
  generalize options.emitUnsupported = documented
  induction values with
  | nil => rfl
  | cons v values ih =>
    rw [List.filter_cons]
    cases v with
    | name s =>
      rw [if_pos (by simp only [Resolved.isSupported, Bool.or_true]), List.map_cons, ih]
      rfl
    | unsupported =>
      cases documented with
      | true => exact congrArg (Resolved.placeholder :: ·) ih
      | false => exact ih

namespace Documenter

variable (d : Documenter) (handler : Code.Tree) (owner : String) (records : List Override)

/-- The names that the use of one capability proposes. -/
theorem proposedBy_names (c : Capability) (g : Generator) :
    ((d.proposedBy handler owner records ⟨c, d.settings.keys.keyOf c, []⟩ g).proposals.map
        fun p => p.parameter.name) =
      namesFrom d.settings.keys d.settings.synthesis.emitUnsupported d.load handler owner c := by
  unfold proposedBy namesFrom
  cases BuilderCall.find? handler c owner with
  | none => rfl
  | some call =>
    have keys := Synthesis.synthesize_keys d.today records d.settings.synthesis
      ⟨c, d.settings.keys.keyOf c, []⟩ (Allowed.resolve d.load call) g
    rw [Synthesis.names_eq_nameAll] at keys
    simp only [List.map_map]
    exact keys

/-- The names that a handler proposes, capability by capability. -/
theorem proposed_names (declaration : Code.Cursor) (g : Generator) :
    ((d.proposed declaration owner g).proposals.map fun p => p.parameter.name) =
      Capability.all.flatMap (namesFrom d.settings.keys d.settings.synthesis.emitUnsupported d.load
        declaration.focus owner) := by
  unfold proposed Settings.features
  generalize Capability.all = cs
  induction cs generalizing g with
  | nil => rfl
  | cons c cs ih =>
    simp only [List.map_cons, proposedByAll, List.map_append, List.flatMap_cons, ih,
      proposedBy_names]

/-- **The names of a handler's parameters.** Documenting a handler that is found succeeds, whatever
it starts from. Without vetoes the operation keeps what it has, and behind that it gets parameters
whose names are: that of inclusion, if the handler calls for it; one for each value of the filters;
that of sorting, if the handler calls for it; one for each value of the fields. -/
theorem addHandler_names {d : Documenter} (unvetoed : d.vetoes = []) {u : ParsedSource}
    {owner method : String} {declaration : Code.Cursor}
    (found : u.handler? (some owner) method = some declaration) (w : Documented) :
    ∃ (w' : Documented) (added : List Parameter),
      (d.addHandler u owner method).run w = .ok () w' ∧
      w'.operation = w.operation.append added ∧
      added.map Parameter.name =
        let names := namesFrom d.settings.keys d.settings.synthesis.emitUnsupported d.load
          declaration.focus owner
        names .relation ++ names .filter ++ names .sort ++ names .field := by
  have joined := w.operation_settle_nil (d.proposed declaration owner w.generator)
  rw [← unvetoed] at joined
  refine ⟨_, _, run_addHandler_of_some found w, joined, ?_⟩
  rw [List.map_map]
  refine (proposed_names d owner declaration w.generator).trans ?_
  simp only [Capability.all, List.flatMap_cons, List.flatMap_nil, List.append_nil,
    List.append_assoc]

end Documenter

/-! ## A class with one handler -/

namespace Sample

open Code

/-- A node of a tree written by hand, where no offset matters. -/
def node (kind : Kind) (role : Option Role) (text : String) (children : List Tree) : Tree :=
  .node ⟨kind, role, 0, 0, text⟩ children

/-- A call of a method of the builder. -/
def call (method : String) (args : List Tree) : Tree :=
  node .memberCallExpression none "" [
    node .variableName (some .object) "$query" [],
    node .name (some .name) method [],
    node .arguments (some .arguments) "" (args.map fun a => node .argument none "" [a])]

/-- A handler that allows two filters, one of them by a variable, and all inclusions. -/
def handler : Tree :=
  node .methodDeclaration none "" [
    node .name (some .name) "list" [],
    node .block (some .body) "" [
      call "allowedFilters" [node .string none "'id'" [], node .variableName none "$other" []],
      call "allowedIncludes" []]]

/-- A source that declares a class with this handler. -/
def source : ParsedSource where
  label := "posts.php"
  source := ""
  tree := node .program none "" [
    node .classDeclaration none "" [node .name (some .name) "Posts" [], handler]]

/-- A documenter that documents values without a name too, and finds no other source. -/
def documenter : Documenter where
  settings := { synthesis := { emitUnsupported := true } }
  load := fun className => .error (.noSource className)
  today := ⟨2024, 5, 1⟩

/-- The handler is found, and its three parameters have these names. -/
theorem addHandler_names_of_source :
    documenter.vetoes = [] ∧ ∃ declaration,
      source.handler? (some "App\\Posts") "list" = some declaration ∧ ∀ w, ∃ w' added,
        (documenter.addHandler source "App\\Posts" "list").run w = .ok () w' ∧
        w'.operation = w.operation.append added ∧
        added.map Parameter.name =
          ["include", "filter[id]", "filter[--not_supported--]"] := by
  have first : (source.handler? (some "App\\Posts") "list").map Cursor.focus = some handler := by
    rw [ParsedSource.focus_handler?, ParsedSource.scope_some]
    rfl
  obtain ⟨declaration, found, focus⟩ := Option.map_eq_some_iff.mp first
  refine ⟨rfl, declaration, found, fun w => ?_⟩
  obtain ⟨w', added, run, joined, names⟩ :=
    Documenter.addHandler_names (d := documenter) rfl found w
  refine ⟨w', added, run, joined, names.trans ?_⟩
  simp only [focus, namesFrom, BuilderCall.find?_eq]
  rfl

end Sample

end RouteDoc
