import Mathlib.Data.List.Nodup
import RouteDoc.Proofs.Documenter.Calls
import RouteDoc.Proofs.Documenter.Offers
import RouteDoc.Proofs.Documenter.Vetoes
import RouteDoc.Proofs.Text.Spans

/-!
# Parameters that do not collide

A parameter is named by a query key, or by a query key with a value in brackets behind it. A value
is any text, brackets and other keys included. Still, where no key holds an opening bracket, the key
is what a name begins with up to the first one, so keys that are pairwise different keep the
capabilities apart, and within one capability the values do.

## Main statements

* `keyPart_of_mem_namesFrom`: the key of a capability can be read off each name that it contributes.
* `nodup_namesFrom`: the names of one capability differ if its values do.
* `document_distinctNames`: the parameters of a handler have pairwise different names, so each of
  them is found under its own.
-/

set_option autoImplicit false

namespace RouteDoc

/-- The keys of the capabilities can be told apart, alone and in front of a value. -/
structure QueryKeys.Distinct (keys : QueryKeys) : Prop where
  /-- They are pairwise different. -/
  apart : (Capability.all.map keys.keyOf).Nodup
  /-- None of them holds the bracket behind which a value begins. -/
  unbracketed : ∀ c, '[' ∉ (keys.keyOf c).toList

/-- The part of a name in front of its first opening bracket. -/
def keyPart (name : String) : List Char :=
  name.toList.takeWhile (· != '[')

/-- The names under which a handler's call for one capability documents its values. Without a call
there are none. -/
def keptNames (documentUnsupported : Bool) (load : Loader) (handler : Code.Tree) (owner : String)
    (c : Capability) : List String :=
  match BuilderCall.find? handler c owner with
  | none => []
  | some call => Resolved.nameAll documentUnsupported (Allowed.resolve load call)

theorem forall_bne_of_unbracketed {key : String} (plain : '[' ∉ key.toList) :
    ∀ c ∈ key.toList, (c != '[') = true := by
  intro c mem
  have other : c ≠ '[' := fun same => plain (same ▸ mem)
  simpa using other

/-- A key without a bracket is all there is in front of the first one. -/
theorem keyPart_of_unbracketed {key : String} (plain : '[' ∉ key.toList) :
    keyPart key = key.toList :=
  List.takeWhile_eq_self_iff.mpr (forall_bne_of_unbracketed plain)

-- However the value goes on, the key in front of it ends at the bracket.
/-- A key can be read off a name, whatever the value behind it holds. -/
theorem keyPart_keyOf {key : String} (plain : '[' ∉ key.toList) (value : String) :
    keyPart (Synthesis.keyOf key value) = key.toList := by
  have text : (Synthesis.keyOf key value).toList = key.toList ++ '[' :: (value.toList ++ [']']) := by
    simp [Synthesis.keyOf]
  rw [keyPart, text]
  exact Text.takeWhile_append_of_stop (forall_bne_of_unbracketed plain) (by simp)

/-- Under one key the value tells the names apart. -/
theorem Synthesis.keyOf_injective (key : String) : Function.Injective (keyOf key) := by
  intro v w same
  have texts := congrArg String.toList same
  simp only [Synthesis.keyOf, String.toList_append, List.append_cancel_left_eq,
    List.append_cancel_right_eq] at texts
  exact String.toList_inj.mp texts

section Names

variable {keys : QueryKeys} {documentUnsupported : Bool} {load : Loader} {handler : Code.Tree}
  {owner : String}

/-- Where every value has a parameter, the names are those of the values that are kept. -/
theorem namesFrom_of_perValue {c : Capability} (perValue : c.isPerValue = true) :
    namesFrom keys documentUnsupported load handler owner c =
      (keptNames documentUnsupported load handler owner c).map
        (Synthesis.keyOf (keys.keyOf c)) := by
  unfold namesFrom keptNames
  cases BuilderCall.find? handler c owner with
  | none => rfl
  | some call => exact if_pos perValue

/-- A capability that is documented as a whole has at most one parameter, under the key itself. -/
theorem namesFrom_of_whole {c : Capability} (whole : c.isPerValue = false) :
    (namesFrom keys documentUnsupported load handler owner c).Sublist [keys.keyOf c] := by
  unfold namesFrom
  cases BuilderCall.find? handler c owner with
  | none => exact List.nil_sublist _
  | some call => rw [whole]; exact List.Sublist.refl _

/-- The key of a capability can be read off each name that it contributes. -/
theorem keyPart_of_mem_namesFrom (distinct : keys.Distinct) {c : Capability} {name : String}
    (mem : name ∈ namesFrom keys documentUnsupported load handler owner c) :
    keyPart name = (keys.keyOf c).toList := by
  have plain := distinct.unbracketed c
  cases perValue : c.isPerValue with
  | true =>
    rw [namesFrom_of_perValue perValue] at mem
    obtain ⟨value, -, rfl⟩ := List.mem_map.mp mem
    exact keyPart_keyOf plain value
  | false =>
    have same := List.mem_singleton.mp ((namesFrom_of_whole perValue).subset mem)
    rw [same, keyPart_of_unbracketed plain]

/-- The parameters of one capability have different names if its values do. -/
theorem nodup_namesFrom {c : Capability}
    (kept : c.isPerValue = true → (keptNames documentUnsupported load handler owner c).Nodup) :
    (namesFrom keys documentUnsupported load handler owner c).Nodup := by
  cases perValue : c.isPerValue with
  | true =>
    rw [namesFrom_of_perValue perValue]
    exact (kept perValue).map (Synthesis.keyOf_injective _)
  | false => exact (List.nodup_singleton _).sublist (namesFrom_of_whole perValue)

/-- Different keys keep the names of two capabilities apart. -/
theorem disjoint_namesFrom (distinct : keys.Distinct) {c c' : Capability}
    (other : keys.keyOf c ≠ keys.keyOf c') :
    (namesFrom keys documentUnsupported load handler owner c).Disjoint
      (namesFrom keys documentUnsupported load handler owner c') := by
  intro name here there
  -- The key can be read off the name, so it would be the key of both.
  have same := (keyPart_of_mem_namesFrom distinct here).symm.trans
    (keyPart_of_mem_namesFrom distinct there)
  exact other (String.toList_inj.mp same)

/-- The names that all capabilities together contribute are pairwise different. -/
theorem nodup_allNames (distinct : keys.Distinct)
    (kept : ∀ c, c.isPerValue = true →
      (keptNames documentUnsupported load handler owner c).Nodup) :
    (Capability.all.flatMap (namesFrom keys documentUnsupported load handler owner)).Nodup := by
  have apart : Capability.all.Pairwise fun c c' => keys.keyOf c ≠ keys.keyOf c' :=
    List.pairwise_map.mp distinct.apart
  exact List.nodup_flatMap.mpr
    ⟨fun c _ => nodup_namesFrom (kept c), apart.imp fun other => disjoint_namesFrom distinct other⟩

end Names

/-- Among parameters with pairwise different names, each is the first of its own. -/
theorem Operation.parameter?_of_nodup {op : Operation}
    (distinct : (op.parameters.map Parameter.name).Nodup) {p : Parameter}
    (mem : p ∈ op.parameters) : op.parameter? p.name = some p := by
  obtain ⟨id, ps⟩ := op
  change (ps.map Parameter.name).Nodup at distinct
  change p ∈ ps at mem
  show ps.find? (·.name == p.name) = some p
  induction ps with
  | nil => cases mem
  | cons q ps ih =>
    obtain ⟨new, rest⟩ := List.nodup_cons.mp distinct
    obtain rfl | behind := List.mem_cons.mp mem
    · exact List.find?_cons_of_pos (beq_self_eq_true p.name)
    · have other : (q.name == p.name) = false := by
        rw [beq_eq_false_iff_ne]
        intro same
        exact new (same ▸ List.mem_map_of_mem behind)
      rw [List.find?_cons, other]
      exact ih rest behind

namespace Documenter

/-- Whatever the vetoes halt, the parameters that join an operation are among those proposed, in
order. -/
theorem exists_sublist_settle (w : Documented) (vetoes : List Veto) (p : Proposed) :
    ∃ added, (w.settle vetoes p).operation = w.operation.append added ∧
      added.Sublist (p.proposals.map Proposal.parameter) := by
  obtain ⟨os, -, proposals, -, joined⟩ := w.exists_offers_settle vetoes p
  refine ⟨Offer.accepted os, joined, ?_⟩
  rw [← proposals, List.map_map]
  exact List.filter_sublist.map Offer.parameter

/-- **Parameters do not collide.** Let the keys of the capabilities be pairwise different and without
an opening bracket, and let a handler's filters be pairwise different as they are documented, and
its fields likewise. Then documenting the handler succeeds, whatever the generator, the vetoes and
the records of its comment are; its parameters have pairwise different names, and under each of
these names the operation has that very parameter. -/
theorem document_distinctNames {d : Documenter} (distinct : d.settings.keys.Distinct)
    {action : String} {h : Handler} {u : ParsedSource} {declaration : Code.Cursor}
    (declared : Handler.Declared d.load action h u declaration)
    (kept : ∀ c, c.isPerValue = true →
      (keptNames d.settings.synthesis.emitUnsupported d.load declaration.focus h.className c).Nodup)
    (g : Generator) :
    ∃ w, d.document g action = .ok w ∧
      (w.operation.parameters.map Parameter.name).Nodup ∧
      ∀ p ∈ w.operation.parameters, w.operation.parameter? p.name = some p := by
  obtain ⟨added, joined, among⟩ := exists_sublist_settle ⟨.named action, g, []⟩ d.vetoes
    (d.proposed declaration h.className g)
  have proposed : ((d.proposed declaration h.className g).proposals.map
      fun p => p.parameter.name).Nodup := by
    rw [proposed_names]
    exact nodup_allNames distinct kept
  refine ⟨_, document_of_declared declared g, ?_⟩
  have names : ((((⟨.named action, g, []⟩ : Documented).settle d.vetoes
      (d.proposed declaration h.className g)).operation.parameters).map Parameter.name).Nodup := by
    have sublist := among.map Parameter.name
    rw [List.map_map] at sublist
    rw [joined]
    exact proposed.sublist sublist
  exact ⟨names, fun p mem => Operation.parameter?_of_nodup names mem⟩

end Documenter

namespace Sample

open Code

/-- A handler with values that hold brackets, in one case around the key of the other capability. -/
def bracketed : Tree :=
  node .methodDeclaration none "" [
    node .name (some .name) "list" [],
    node .block (some .body) "" [
      call "allowedFilters" [
        node .string none "'id'" [], node .string none "'id][fields'" [],
        node .variableName none "$other" []],
      call "allowedFields" [node .string none "'id'" [], node .string none "'filter[id]'" []],
      call "allowedSorts" [node .string none "'id'" []]]]

/-- A source that declares a class with this handler. -/
def bracketedSource : ParsedSource where
  label := "posts.php"
  source := ""
  tree := node .program none "" [
    node .classDeclaration none "" [node .name (some .name) "Posts" [], bracketed]]

/-- A documenter that finds this source, and whose veto halts the filter on `id`. -/
def guardedBracketed : Documenter :=
  { guarded with load := fun _ => .ok bracketedSource }

/-- The parameters of this handler do not collide. -/
theorem document_distinctNames_of_bracketed :
    guardedBracketed.settings.keys.Distinct ∧ ∃ declaration,
      Handler.Declared guardedBracketed.load "Posts@list" ⟨"Posts", "list"⟩ bracketedSource
        declaration ∧
      keptNames true guardedBracketed.load declaration.focus "Posts" .filter =
        ["id", "id][fields", "--not_supported--"] ∧
      keptNames true guardedBracketed.load declaration.focus "Posts" .field =
        ["id", "filter[id]"] ∧
      ∀ g, ∃ w, guardedBracketed.document g "Posts@list" = .ok w ∧
        (w.operation.parameters.map Parameter.name).Nodup ∧
        ∀ p ∈ w.operation.parameters, w.operation.parameter? p.name = some p := by
  have distinct : guardedBracketed.settings.keys.Distinct :=
    ⟨by decide +kernel, fun c => by cases c <;> decide +kernel⟩
  have first : (bracketedSource.handler? (some "Posts") "list").map Cursor.focus =
      some bracketed := by
    rw [ParsedSource.focus_handler?, ParsedSource.scope_some]
    rfl
  obtain ⟨declaration, found, focus⟩ := Option.map_eq_some_iff.mp first
  have declared : Handler.Declared guardedBracketed.load "Posts@list" ⟨"Posts", "list"⟩
      bracketedSource declaration := ⟨by rfl, rfl, found⟩
  have filters : keptNames true guardedBracketed.load declaration.focus "Posts" .filter =
      ["id", "id][fields", "--not_supported--"] := by
    rw [focus, keptNames, BuilderCall.find?_eq]
    rfl
  have fields : keptNames true guardedBracketed.load declaration.focus "Posts" .field =
      ["id", "filter[id]"] := by
    rw [focus, keptNames, BuilderCall.find?_eq]
    rfl
  refine ⟨distinct, declaration, declared, filters, fields,
    Documenter.document_distinctNames distinct declared fun c perValue => ?_⟩
  cases c with
  | filter => exact filters ▸ (by decide)
  | field => exact fields ▸ (by decide)
  | relation => cases perValue
  | sort => cases perValue

end Sample

end RouteDoc
