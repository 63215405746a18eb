import RouteDoc.Documenter
import RouteDoc.Proofs.Text.Spans

/-!
# Actions and the handlers they name

An action is a class, an `@` and a method, and backslashes in front of the class do not count. It
names no handler when the class or the method is missing. Whether the class is missing is asked
before the backslashes are taken off, however, so that backslashes alone pass for a class, and a
source is then looked for under an empty name.

## Main statements

* `Action.exists_text_eq`: an action with an `@` can be taken apart in this way.
* `Action.ofAction_text`: what an action names, by its parts.
* `Action.ofAction_eq_handler_iff`: it names what the parts say just if it does not have backslashes
  in place of the class in front of a method, and the backslashes in front of a class do not count.
* `ofAction_backslash`: a backslash passes for a class.
-/

set_option autoImplicit false

namespace RouteDoc

/-! ## Names without backslashes in front -/

/-- A name without a backslash in front is left as it is. -/
theorem bareName_of_head {s : String} (bare : s.toList.head? ≠ some '\\') : bareName s = s := by
  rw [bareName, List.dropWhile_beq_eq_self_of_head?_ne bare, String.ofList_toList]

/-- A number of backslashes. -/
def backslashes (k : Nat) : String :=
  String.ofList (List.replicate k '\\')

/-- Any number of backslashes in front is taken off. -/
theorem bareName_backslashes {s : String} (bare : s.toList.head? ≠ some '\\') (k : Nat) :
    bareName (backslashes k ++ s) = s := by
  have dropped : (backslashes k ++ s).toList.dropWhile (· == '\\') =
      s.toList.dropWhile (· == '\\') := by
    simp [backslashes, List.dropWhile_append_of_pos]
  rw [bareName, dropped, ← bareName, bareName_of_head bare]

/-! ## Splitting an action -/

namespace Handler

/-- Without an `@` there is nothing to split at. -/
theorem ofAction_of_noAt {action : String} (noAt : '@' ∉ action.toList) :
    ofAction action = .error (ofAction.invalid action) := by
  have none_left : action.toList.dropWhile (· != '@') = [] := by
    rw [List.dropWhile_eq_nil_iff]
    exact fun c mem => bne_iff_ne.mpr fun same => noAt (same ▸ mem)
  rw [ofAction, none_left]

/-- What is in front of the first `@` is the class, and what is behind it is the method. -/
theorem ofAction_cut {className : String} (noAt : '@' ∉ className.toList) (method : String) :
    ofAction (className ++ "@" ++ method) =
      if className = "" ∨ method = "" then
        .error (ofAction.invalid (className ++ "@" ++ method))
      else .ok ⟨bareName className, method⟩ := by
  have before : ∀ c ∈ className.toList, (c != '@') = true :=
    fun c mem => bne_iff_ne.mpr fun same => noAt (same ▸ mem)
  have chars : (className ++ "@" ++ method).toList =
      className.toList ++ '@' :: method.toList := by
    simp
  have cut : (className ++ "@" ++ method).toList.takeWhile (· != '@') = className.toList := by
    rw [chars, List.takeWhile_append_of_pos before]
    simp
  have rest : (className ++ "@" ++ method).toList.dropWhile (· != '@') = '@' :: method.toList := by
    rw [chars, List.dropWhile_append_of_pos before]
    rfl
  simp only [ofAction, cut, rest, String.ofList_toList, Bool.or_eq_true, List.isEmpty_iff,
    String.toList_eq_nil_iff]

/-- An action made of a class and a method names just these. -/
theorem ofAction_join {className method : String} (noAt : '@' ∉ className.toList)
    (named : className ≠ "") (methodNamed : method ≠ "") :
    ofAction (className ++ "@" ++ method) = .ok ⟨bareName className, method⟩ := by
  rw [ofAction_cut noAt, if_neg (by simp [named, methodNamed])]

end Handler

/-! ## Actions by their parts -/

/-- An action in its parts. -/
structure Action where
  /-- The number of backslashes in front. -/
  depth : Nat
  /-- The class, without backslashes in front. -/
  className : String
  /-- The method. -/
  method : String
  /-- The first `@` is behind the class. -/
  noAt : '@' ∉ className.toList
  /-- The backslashes in front are counted apart. -/
  bare : className.toList.head? ≠ some '\\'

namespace Action

/-- The action as it is written. -/
def text (a : Action) : String :=
  backslashes a.depth ++ a.className ++ "@" ++ a.method

/-- The handler that the parts name: there is one if neither the class nor the method is empty. -/
def handler (a : Action) : Except Fault Handler :=
  if a.className = "" ∨ a.method = "" then .error (Handler.ofAction.invalid a.text)
  else .ok ⟨a.className, a.method⟩

/-- There is a method, but for the class there are only backslashes. -/
def Classless (a : Action) : Prop :=
  a.className = "" ∧ 0 < a.depth ∧ a.method ≠ ""

/-- Every action with an `@` has such parts. -/
theorem exists_text_eq {action : String} (mem : '@' ∈ action.toList) :
    ∃ a : Action, a.text = action := by
  obtain ⟨front, method, cut, noAt⟩ := List.eq_append_cons_of_mem mem
  have filled : front.takeWhile (· == '\\') =
      List.replicate (front.takeWhile (· == '\\')).length '\\' :=
    List.eq_replicate_of_mem fun c mem => by simpa using List.mem_takeWhile_imp mem
  have noAt' : '@' ∉ (String.ofList (front.dropWhile (· == '\\'))).toList := by
    rw [String.toList_ofList]
    exact fun mem => noAt ((List.dropWhile_sublist _).mem mem)
  have bare : (String.ofList (front.dropWhile (· == '\\'))).toList.head? ≠ some '\\' := by
    rw [String.toList_ofList]
    intro first
    have other := Text.not_of_mem_head?_dropWhile (Option.mem_def.mpr first)
    simp at other
  refine ⟨⟨(front.takeWhile (· == '\\')).length, _, String.ofList method, noAt', bare⟩, ?_⟩
  rw [← String.toList_inj, cut]
  simp [text, backslashes, ← filled]

/-- What stands in front of the `@` is empty just if both of its parts are. -/
theorem backslashes_append_eq_empty_iff {k : Nat} {s : String} :
    backslashes k ++ s = "" ↔ k = 0 ∧ s = "" := by
  simp [backslashes]

/-- What an action names: the class and the method of its parts, unless there is no method, or
neither a class nor a backslash. -/
theorem ofAction_text (a : Action) :
    Handler.ofAction a.text =
      if a.depth = 0 ∧ a.className = "" ∨ a.method = "" then
        .error (Handler.ofAction.invalid a.text)
      else .ok ⟨a.className, a.method⟩ := by
  have noAt : '@' ∉ (backslashes a.depth ++ a.className).toList := by
    simp [backslashes, a.noAt]
  rw [text, Handler.ofAction_cut noAt, bareName_backslashes a.bare]
  simp only [backslashes_append_eq_empty_iff]

/-- An action with both parts names them, however many backslashes are in front. -/
theorem ofAction_of_named {a : Action} (named : a.className ≠ "") (methodNamed : a.method ≠ "") :
    Handler.ofAction a.text = .ok ⟨a.className, a.method⟩ := by
  rw [ofAction_text, if_neg (by simp [named, methodNamed])]

/-- Backslashes pass for a class, which is empty afterwards. -/
theorem ofAction_of_classless {a : Action} (classless : a.Classless) :
    Handler.ofAction a.text = .ok ⟨"", a.method⟩ := by
  obtain ⟨unnamed, deep, methodNamed⟩ := classless
  rw [ofAction_text, if_neg (by simp [methodNamed, Nat.ne_of_gt deep]), unnamed]

/-- Unless backslashes stand for the class in front of a method, an action names what its parts say.
-/
theorem ofAction_of_not_classless {a : Action} (sound : ¬ a.Classless) :
    Handler.ofAction a.text = a.handler := by
  have same : (a.depth = 0 ∧ a.className = "" ∨ a.method = "") ↔
      (a.className = "" ∨ a.method = "") := by
    constructor
    · exact Or.imp_left And.right
    · rintro (unnamed | methodless)
      · by_cases methodless : a.method = ""
        · exact .inr methodless
        · refine .inl ⟨Nat.eq_zero_of_not_pos fun deep => ?_, unnamed⟩
          exact sound ⟨unnamed, deep, methodless⟩
      · exact .inr methodless
  simp only [ofAction_text, handler, same]

end Action

/-! ## Handling an action -/

namespace Documenter

/-- A documenter knows of an action only what handler it names. -/
theorem addAction_congr (d : Documenter) {action action' : String}
    (same : Handler.ofAction action = Handler.ofAction action') :
    d.addAction action = d.addAction action' := by
  rw [addAction, addAction, same]

/-- Where backslashes pass for a class, the loader is asked for a source under the empty name. -/
theorem addAction_of_classless (d : Documenter) {a : Action} (classless : a.Classless) :
    d.addAction a.text = ofExcept (d.load "") >>= fun u => d.addHandler u "" a.method := by
  rw [addAction, Action.ofAction_of_classless classless]
  rfl

end Documenter

/-- **What an action names.** Without an `@` it names no handler. With one it names what its parts
say, the class and the method if both are there and else no handler, just if it does not have
backslashes in place of the class in front of a method. Where both are there, handling the action is
the same task for every number of backslashes. An action that is accepted has an empty class just if
it has backslashes in place of the class, and then a source is looked for under the empty name. -/
theorem Action.ofAction_eq_handler_iff (d : Documenter) :
    (∀ action, '@' ∉ action.toList →
      Handler.ofAction action = .error (Handler.ofAction.invalid action)) ∧
    (∀ a : Action,
      (Handler.ofAction a.text = a.handler ↔ ¬ a.Classless) ∧
      (a.className ≠ "" → a.method ≠ "" →
        ∀ depth, d.addAction { a with depth }.text = d.addAction a.text) ∧
      (a.Classless →
        d.addAction a.text = ofExcept (d.load "") >>= fun u => d.addHandler u "" a.method)) ∧
    ∀ action h, Handler.ofAction action = .ok h →
      (h.className = "" ↔ ∃ a : Action, a.Classless ∧ a.text = action) := by
  refine ⟨fun _ => Handler.ofAction_of_noAt, fun a => ⟨⟨?_, ofAction_of_not_classless⟩, ?_,
    d.addAction_of_classless⟩, ?_⟩
  · intro meant classless
    rw [ofAction_of_classless classless, handler, if_pos (.inl classless.1)] at meant
    cases meant
  · intro named methodNamed depth
    apply d.addAction_congr
    rw [ofAction_of_named named methodNamed]
    exact ofAction_of_named (a := { a with depth }) named methodNamed
  · intro action h accepted
    constructor
    · intro unnamed
      have mem : '@' ∈ action.toList := by
        by_contra noAt
        rw [Handler.ofAction_of_noAt noAt] at accepted
        cases accepted
      obtain ⟨a, rfl⟩ := exists_text_eq mem
      refine ⟨a, ?_, rfl⟩
      by_contra sound
      rw [ofAction_of_not_classless sound, handler] at accepted
      split at accepted
      next => cases accepted
      next present =>
        cases accepted
        exact present (.inl unnamed)
    · rintro ⟨a, classless, rfl⟩
      rw [ofAction_of_classless classless] at accepted
      cases accepted
      rfl

namespace Sample

/-- An action with two backslashes in front, and with an `@` in its method. -/
def deepAction : Action where
  depth := 2
  className := "App\\Posts"
  method := "list@all"
  noAt := by decide
  bare := by decide

/-- The backslashes are taken off, and the second `@` belongs to the method. -/
theorem ofAction_eq_handler_of_deep :
    deepAction.className ≠ "" ∧ deepAction.method ≠ "" ∧ ¬ deepAction.Classless ∧
      ∀ d : Documenter,
        Handler.ofAction "\\\\App\\Posts@list@all" = .ok ⟨"App\\Posts", "list@all"⟩ ∧
          d.addAction "App\\Posts@list@all" = d.addAction "\\\\App\\Posts@list@all" := by
  have named : deepAction.className ≠ "" := by decide
  have methodNamed : deepAction.method ≠ "" := by decide
  have sound : ¬ deepAction.Classless := fun classless => named classless.1
  have written : deepAction.text = "\\\\App\\Posts@list@all" := by decide +kernel
  have writtenBare : { deepAction with depth := 0 }.text = "App\\Posts@list@all" := by
    decide +kernel
  refine ⟨named, methodNamed, sound, fun d => ?_⟩
  have whole := (Action.ofAction_eq_handler_iff d).2.1 deepAction
  have split := whole.1.mpr sound
  have same := whole.2.1 named methodNamed 0
  rw [writtenBare, written] at same
  rw [written] at split
  exact ⟨split, same⟩

/-- An action with a backslash in place of the class. -/
def classlessAction : Action where
  depth := 1
  className := ""
  method := "index"
  noAt := by decide
  bare := by decide

/-- The parts name no handler, but the action is accepted, and what is missing in the end is the
source of the empty class. -/
theorem ofAction_backslash :
    classlessAction.text = "\\@index" ∧
      classlessAction.handler = .error (Handler.ofAction.invalid "\\@index") ∧
      Handler.ofAction "\\@index" = .ok ⟨"", "index"⟩ ∧
      ∀ settings today g,
        ({ settings, load := ({} : Library).load, today } : Documenter).document g "\\@index" =
          .error (.noSource "") := by
  have split : Handler.ofAction "\\@index" = .ok ⟨"", "index"⟩ := by decide +kernel
  have written : classlessAction.text = "\\@index" := by decide +kernel
  refine ⟨written, ?_, split, fun settings today g => ?_⟩
  · rw [Action.handler, if_pos (.inl rfl), written]
  · rw [Documenter.document, Documenter.extend, Documenter.addAction, split]
    rfl

end Sample

end RouteDoc
