import RouteDoc.Proofs.Command.Independence
import RouteDoc.Proofs.Documenter.Actions

/-!
# Two commands for one handler

A handler can be documented in two ways: by the command for actions, which finds the class under the
roots and reads its file again whenever the handler refers to a member of the class; and by the
command for one file, which reads that file once and serves its members from memory. Both come to
the same, since a documenter asks its loader for nothing but the owner of the handler, and what is
read there does not depend on how messages call the source.

## Main statements

* `Documenter.proposed_of_load`: what a handler proposes is the same for all loaders that find the
  same code for its owner.
* `documentActions_agrees_inspect`: the two commands fail alike or give the same operation.
-/

set_option autoImplicit false

namespace RouteDoc

/-! ## What a documenter asks its loader for -/

/-- Two loaders find the same code for a class, whatever they call it. -/
def Loader.SameCode (load load' : Loader) (className : String) : Prop :=
  ∃ u u', load className = .ok u ∧ load' className = .ok u' ∧ u.tree = u'.tree

/-- Members are read off the tree; what the source is called does not matter. -/
theorem ParsedSource.property?_of_tree {u u' : ParsedSource} (same : u.tree = u'.tree)
    (name : String) : u.property? name = u'.property? name := by
  rw [property?, property?, same]

theorem ParsedSource.declaredMethod?_of_tree {u u' : ParsedSource} (same : u.tree = u'.tree)
    (name : String) : u.declaredMethod? name = u'.declaredMethod? name := by
  rw [declaredMethod?, declaredMethod?, method?, method?, same]

/-- A builder call stands in the class in which it was looked for. -/
theorem BuilderCall.owner_of_find? {handler : Code.Tree} {c : Capability} {owner : String}
    {call : BuilderCall} (found : find? handler c owner = some call) : call.owner = owner := by
  obtain ⟨node, -, rfl⟩ := Option.map_eq_some_iff.mp found
  rfl

/-- The values that a builder call allows are the same for all loaders that find the same code for
its owner. -/
theorem Allowed.resolve_of_load {load load' : Loader} {call : BuilderCall}
    (same : load.SameCode load' call.owner) : resolve load call = resolve load' call := by
  obtain ⟨u, u', loaded, loaded', tree⟩ := same
  have property : ∀ name, ofProperty load call.owner name = ofProperty load' call.owner name := by
    intro name
    rw [ofProperty, ofProperty, loaded, loaded']
    simp only [ParsedSource.property?_of_tree tree]
  have method : ∀ name, ofMethod load call.owner name = ofMethod load' call.owner name := by
    intro name
    rw [ofMethod, ofMethod, loaded, loaded']
    simp only [ParsedSource.declaredMethod?_of_tree tree]
  unfold resolve
  simp only [property, method]

namespace Documenter

variable {d : Documenter} {load' : Loader} {owner : String}

/-- What is proposed hangs on the loader only by way of the code that it finds. -/
theorem proposedBy_of_load (same : d.load.SameCode load' owner) (handler : Code.Tree)
    (records : List Override) (f : Feature) (g : Generator) :
    d.proposedBy handler owner records f g =
      { d with load := load' }.proposedBy handler owner records f g := by
  unfold proposedBy
  cases found : BuilderCall.find? handler f.capability owner with
  | none => rfl
  | some call =>
    have owned := BuilderCall.owner_of_find? found
    simp only [Allowed.resolve_of_load (owned ▸ same : d.load.SameCode load' call.owner)]

/-- What a handler proposes is the same for all loaders that find the same code for its owner. -/
theorem proposed_of_load (same : d.load.SameCode load' owner) (declaration : Code.Cursor)
    (g : Generator) :
    d.proposed declaration owner g = { d with load := load' }.proposed declaration owner g := by
  have all : ∀ (records : List Override) (fs : List Feature) (g : Generator),
      d.proposedByAll declaration.focus owner records fs g =
        { d with load := load' }.proposedByAll declaration.focus owner records fs g := by
    intro records fs
    induction fs with
    | nil => intro g; rfl
    | cons f fs ih =>
      intro g
      simp only [proposedByAll, proposedBy_of_load same, ih]
  exact all _ _ g

end Documenter

/-! ## Where the two commands read a class -/

/-- What can be read is a file. -/
theorem FileSystem.isFile_of_text {files : FileSystem} {path source : String}
    (text : files.text path = .ok source) : files.isFile path = true := by
  rw [FileSystem.text, bytes] at text
  rw [isFile]
  cases found : files.locate path with
  | error e =>
    rw [found] at text
    cases text
  | ok node =>
    cases node with
    | file bs => rfl
    | directory es =>
      rw [found] at text
      cases text

/-- The source of a class whose file holds a text. -/
theorem Autoload.load_of_path {files : FileSystem} {base : String} {roots : List ClassRoot}
    {className path source : String} (found : path? base roots className = some path)
    (text : files.text path = .ok source) :
    load files base roots className = .ok (.parse path source) := by
  rw [load, found, Option.filter_some, if_pos (files.isFile_of_text text)]
  simp only [read, text]

/-- A class whose file can be told has a root. -/
theorem Autoload.roots_ne_nil_of_path {base : String} {roots : List ClassRoot}
    {className path : String} (found : path? base roots className = some path) : roots ≠ [] := by
  rintro rfl
  cases found

/-- What was inserted last for a class is what is loaded for it. -/
theorem Library.load_insert_self (l : Library) (className source : String) :
    (l.insert className source).load className = .ok (.parse (bareName className) source) := by
  rw [load, source?_insert_self]

namespace Command

/-! ## The two commands -/

/-- The documenter of the command for one file. -/
def inspectorOf (s : Settings) (today : Date) (className source : String) : Documenter :=
  { settings := s, load := (({} : Library).insert className source).load, today }

/-- The command for one file that holds a text, with the class given. -/
theorem inspect_of_text {files : FileSystem} {file source className : String}
    (text : files.text file = .ok source) (bare : className.toList.head? ≠ some '\\')
    (s : Settings) (today : Date) (g : Generator) (method : String) :
    inspect s files today g file method (some className) =
      match (inspectorOf s today className source).documentIn
          (.named (className ++ "@" ++ method)) g (.parse file source) className method with
      | .error e => .error (.ofFault ("Failed to document " ++ (className ++ "@" ++ method)) e)
      | .ok r => .ok r.operation := by
  simp only [inspect, Autoload.read, text, classToInspect, bareName_of_head bare]
  rfl

/-- **Two commands for one handler agree.** Let the file of a class hold a text. Documenting the
action of a method of that class, and documenting that method from the file, either both fail since
the file has no such method, or both succeed, and then the operation of the action is the one that
the file gives. -/
theorem documentActions_agrees_inspect {s : Settings} {files : FileSystem}
    {base className file method source : String} (noAt : '@' ∉ className.toList)
    (bare : className.toList.head? ≠ some '\\') (named : className ≠ "")
    (methodNamed : method ≠ "")
    (lies : Autoload.path? base s.autoload className = some file)
    (text : files.text file = .ok source) (today : Date) (g : Generator) :
    let action := className ++ "@" ++ method
    let documented := documentActions s files base today g [action]
    let inspected := inspect s files today g file method (some className)
    let missing := Failure.ofFault ("Failed to document " ++ action) (.noMethod className method)
    (documented = .error missing ∧ inspected = .error missing) ∨
      ∃ op, inspected = .ok op ∧ documented = .ok [(action, op)] ∧
        documented.map operationsJson = .ok (.obj [(action, op.toJson)]) := by
  intro action documented inspected missing
  have rooted := Autoload.roots_ne_nil_of_path lies
  have split : Handler.ofAction action = .ok ⟨className, method⟩ := by
    rw [Handler.ofAction_join noAt named methodNamed, bareName_of_head bare]
  have loaded : (documenterOf s files base today).load className = .ok (.parse file source) :=
    Autoload.load_of_path lies text
  have inspected_eq : inspected = _ := inspect_of_text text bare s today g method
  cases found : (ParsedSource.parse file source).handler? (some className) method with
  | none =>
    refine .inl ⟨?_, ?_⟩
    · exact documentActions_single_of_error files base today rooted
        (Documenter.document_of_missing (.method split loaded found) g)
    · rw [inspected_eq, Documenter.documentIn, Task.outcome,
        Documenter.run_addHandler_of_none found]
  | some declaration =>
    have same : (documenterOf s files base today).load.SameCode
        (inspectorOf s today className source).load className :=
      ⟨_, _, loaded, Library.load_insert_self {} className source, rfl⟩
    have single := documentActions_single_of_ok files base today rooted
      (Documenter.document_of_declared ⟨split, loaded, found⟩ g)
    refine .inr ⟨_, ?_, single, ?_⟩
    · rw [inspected_eq, Documenter.documentIn, Task.outcome,
        Documenter.run_addHandler_of_some found]
      -- the two documenters differ in their loaders alone
      rw [Documenter.proposed_of_load same]
      rfl
    · rw [show documented = _ from single]
      rfl

/-! ## A handler that refers to a property of its class -/

namespace Sample

/-- A class whose handler allows the filters that a property lists. -/
def memberSource : String :=
  "<?php class A\x7bpublic $v=['id'];function f()\x7b$q->allowedFilters($this->v);\x7d\x7d"

/-- Files with this class below the root. -/
def memberFiles : FileSystem where
  root := .directory [("src", .directory [("A.php", .file
    (memberSource.toList.map fun c => UInt8.ofNat c.toNat))])]

/-- Both commands document the handler, with the same operation. -/
theorem documentActions_agrees_inspect_of_member :
    '@' ∉ "App\\A".toList ∧ "App\\A".toList.head? ≠ some '\\' ∧ "App\\A" ≠ "" ∧ "f" ≠ "" ∧
    Autoload.path? "" settings.autoload "App\\A" = some "src/A.php" ∧
    memberFiles.text "src/A.php" = .ok memberSource ∧
    ∀ today g, ∃ op,
      inspect settings memberFiles today g "src/A.php" "f" (some "App\\A") = .ok op ∧
      documentActions settings memberFiles "" today g ["App\\A" ++ "@" ++ "f"] =
        .ok [("App\\A" ++ "@" ++ "f", op)] := by
  have noAt : '@' ∉ "App\\A".toList := by decide
  have bare : "App\\A".toList.head? ≠ some '\\' := by decide
  have lies : Autoload.path? "" settings.autoload "App\\A" = some "src/A.php" := by decide +kernel
  have text : memberFiles.text "src/A.php" = .ok memberSource := by decide +kernel
  have named : "App\\A" ≠ "" := by decide
  have methodNamed : "f" ≠ "" := by decide
  refine ⟨noAt, bare, named, methodNamed, lies, text, fun today g => ?_⟩
  have declared : ((ParsedSource.parse "src/A.php" memberSource).handler? (some "App\\A")
      "f").isSome = true := by decide +kernel
  rcases documentActions_agrees_inspect noAt bare named methodNamed lies text today g with
    ⟨-, failed⟩ | ⟨op, inspected, documented, -⟩
  · obtain ⟨declaration, found⟩ := Option.isSome_iff_exists.mp declared
    rw [inspect_of_text text bare, Documenter.documentIn, Task.outcome,
      Documenter.run_addHandler_of_some found] at failed
    cases failed
  · exact ⟨op, inspected, documented⟩

end Sample

end Command

end RouteDoc
