import Mathlib.Data.List.Forall2
import RouteDoc.Proofs.Allowed.OwnMembers

/-!
# Four ways to give a list

The same elements may stand in a list at the builder call, in a list that a method returns, in the
default of a property, or side by side as the arguments of the call. The list at the call is
understood best, and what the other three give can be told from it, element by element: the method
loses the created values that count at the call only, the property loses all but literals together
with their places, and the arguments lose all but literals and keep the places.

## Main statements

* `ofElement_inResult`, `ofArgument_eq`, `ofDefault_list`: an element in each of the other ways.
* `resolve_forms`: the four ways side by side; for literals alone they agree.
-/

set_option autoImplicit false

namespace RouteDoc

/-! ## Kinds of elements -/

namespace Shape

/-- Whether a shape is a string literal. -/
def isLiteral (s : Shape) : Bool :=
  s.literal?.isSome

/-- Whether a shape is a call of the method of filters that counts at the builder call only. -/
def isScope : Shape → Bool
  | .classCall className called _ => unqualified className == "AllowedFilter" && called == "scope"
  | _ => false

end Shape

/-- In the result of a method the same argument holds the name as at the call, but for the one
method of filters that counts at the call only. -/
theorem CreatorClass.nameArgument?_inResult (c : CreatorClass) (method : String) :
    c.nameArgument? method .inResult =
      if c = .filter ∧ method = "scope" then none else c.nameArgument? method .atCall := by
  cases c with
  | sort => rfl
  | filter =>
    by_cases scope : method = "scope"
    · subst scope
      decide
    · simp [nameArgument?, scope]

/-- A class makes filters just if its last part is the filter's. -/
theorem CreatorClass.ofClassName?_eq_filter_iff (className : String) :
    ofClassName? className = some .filter ↔ unqualified className = "AllowedFilter" := by
  rw [ofClassName?, List.find?_cons]
  by_cases same : unqualified className = "AllowedFilter"
  · simp [same, name]
  · simp only [name, beq_eq_false_iff_ne.mpr (Ne.symm same), same, iff_false]
    intro found
    have mem := List.mem_of_find?_eq_some found
    simp at mem

/-- A created value in the result of a method is what it is at the call, unless it counts at the
call only. -/
theorem Creation.value_inResult (className method : String) (args : List Shape) :
    value className method args .inResult =
      if unqualified className == "AllowedFilter" && method == "scope" then .unsupported
      else value className method args .atCall := by
  have creator := CreatorClass.ofClassName?_eq_filter_iff className
  rw [value, value, nameArgument?, nameArgument?]
  cases found : CreatorClass.ofClassName? className with
  | none => simp
  | some c =>
    rw [found, Option.some.injEq] at creator
    simp only [Option.bind_some, CreatorClass.nameArgument?_inResult, creator]
    by_cases scope : unqualified className = "AllowedFilter" ∧ method = "scope"
    · simp [scope]
    · rw [if_neg scope, if_neg (by simpa using scope)]

namespace Allowed

/-- An element that a method returns gives what it gives at the call, unless it counts there
only. -/
theorem ofElement_inResult (e : Shape) :
    ofElement .inResult e = if e.isScope then .unsupported else ofElement .atCall e := by
  cases e with
  | classCall className method args => exact Creation.value_inResult className method args
  | _ => simp [ofElement, Shape.isScope]

/-- An argument among literals gives what it gives in a list at the call if it is a literal. -/
theorem ofArgument_eq (e : Shape) :
    ofArgument e = if e.isLiteral then ofElement .atCall e else .unsupported := by
  cases e <;> simp [ofArgument, Shape.isLiteral, Shape.literal?, ofElement]

/-- The default of a property gives what its literals give at the call. -/
theorem ofDefault_list (L : List Shape) :
    ofDefault (.list L) = (L.filter Shape.isLiteral).map (ofElement .atCall) := by
  rw [ofDefault]
  induction L with
  | nil => rfl
  | cons e L ih =>
    cases e with
    | literal s => exact congrArg (.name s :: ·) ih
    | _ => exact ih

/-! ## Members that hold a list -/

/-- The method of that name in the source of a class first returns a list of these elements. -/
def ReturnsList (load : Loader) (owner name : String) (L : List Shape) : Prop :=
  ∃ u m, load owner = .ok u ∧ u.declaredMethod? name = some m ∧ m.returned = some (.list L)

/-- The property of that name in the source of a class has a list of these elements as default. -/
def DefaultsToList (load : Loader) (owner name : String) (L : List Shape) : Prop :=
  ∃ u p, load owner = .ok u ∧ u.property? name = some p ∧ p.default = .list L

/-- A method that returns a list allows what its elements allow. -/
theorem ofMethod_of_returnsList {load : Loader} {owner name : String} {L : List Shape}
    (h : ReturnsList load owner name L) :
    ofMethod load owner name = L.map (ofElement .inResult) := by
  obtain ⟨u, m, loaded, declared, returned⟩ := h
  simp only [ofMethod, loaded, declared, Option.map_some, Option.getD_some, returned, ofReturn]

/-- A property that has a list for its default allows what that default allows. -/
theorem ofProperty_of_defaultsToList {load : Loader} {owner name : String} {L : List Shape}
    (h : DefaultsToList load owner name L) : ofProperty load owner name = ofDefault (.list L) := by
  obtain ⟨u, p, loaded, declared, default⟩ := h
  simp only [ofProperty, loaded, declared, Option.map_some, Option.getD_some, default]

/-- **The four ways to give a list of values.** In a list at the call each element has one entry, in
order, and this is the entry that it has on its own. A method that returns the list gives the same
entries, but for created values that count at the call only; a property with the list as default
gives the entries of its literals; and the elements as arguments, of which the first is a literal,
give the entries of the literals and nothing known in the other places. So for literals the four
agree. -/
theorem resolve_forms (load : Loader) (c : Capability) (owner : String) (L more : List Shape) :
    let given := fun arguments => resolve load ⟨c, owner, arguments⟩
    let R := given (.list L :: more)
    List.Forall₂ (fun e r => given [.list [e]] = [r]) L R ∧
    (∀ name others, ReturnsList load owner name L →
      given (.method name :: others) =
        (L.zip R).map fun p => if p.1.isScope then .unsupported else p.2) ∧
    (∀ name others, DefaultsToList load owner name L →
      given (.property name :: others) = ((L.zip R).filter (·.1.isLiteral)).map Prod.snd) ∧
    (∀ s others, L = .literal s :: others →
      given L = (L.zip R).map fun p => if p.1.isLiteral then p.2 else .unsupported) ∧
    (∀ texts : List String, L = texts.map .literal →
      R = texts.map .name ∧ given L = R ∧
      (∀ name others, ReturnsList load owner name L → given (.method name :: others) = R) ∧
      ∀ name others, DefaultsToList load owner name L → given (.property name :: others) = R) := by
  intro given R
  have paired : L.zip R = L.map fun e => (e, ofElement .atCall e) := List.map_prod_left_eq_zip.symm
  have fromMethod : ∀ name others, ReturnsList load owner name L →
      given (.method name :: others) =
        (L.zip R).map fun p => if p.1.isScope then .unsupported else p.2 := by
    intro name others returns
    rw [paired, List.map_map]
    exact (ofMethod_of_returnsList returns).trans
      (List.map_congr_left fun e _ => ofElement_inResult e)
  have fromProperty : ∀ name others, DefaultsToList load owner name L →
      given (.property name :: others) = ((L.zip R).filter (·.1.isLiteral)).map Prod.snd := by
    intro name others defaults
    rw [paired, List.filter_map, List.map_map]
    exact (ofProperty_of_defaultsToList defaults).trans (ofDefault_list L)
  have fromArguments : ∀ s others, L = .literal s :: others →
      given L = (L.zip R).map fun p => if p.1.isLiteral then p.2 else .unsupported := by
    intro s others literal
    rw [paired, List.map_map]
    have each : given L = L.map ofArgument := by rw [literal]; rfl
    exact each.trans (List.map_congr_left fun e _ => ofArgument_eq e)
  refine ⟨?_, fromMethod, fromProperty, fromArguments, ?_⟩
  · show List.Forall₂ _ L (L.map (ofElement .atCall))
    rw [List.forall₂_map_right_iff, List.forall₂_same]
    exact fun e _ => rfl
  · rintro texts rfl
    have named : R = texts.map .name := List.map_map
    refine ⟨named, ?_, fun name others returns => ?_, fun name others defaults => ?_⟩
    · cases texts with
      | nil => rfl
      | cons s texts =>
        rw [named]
        exact congrArg (Resolved.name s :: ·) List.map_map
    · rw [named]
      exact (ofMethod_of_returnsList returns).trans List.map_map
    · rw [named]
      refine (ofProperty_of_defaultsToList defaults).trans ?_
      rw [ofDefault, List.filterMap_map]
      exact congrFun List.filterMap_eq_map texts

end Allowed

namespace Sample

open Code ParsedSource

/-- A list of a literal, a created filter that counts at the call only, and a variable. -/
def listed (role : Option Role) : Tree :=
  node .arrayCreationExpression role "" [
    node .arrayElementInitializer none "" [node .string none "'id'" []],
    node .arrayElementInitializer none "" [
      node .scopedCallExpression none "" [
        node .name (some .scope) "AllowedFilter" [],
        node .name (some .name) "scope" [],
        node .arguments (some .arguments) "" [
          node .argument none "" [node .string none "'open'" []]]]],
    node .arrayElementInitializer none "" [node .variableName none "$other" []]]

/-- What is told of these elements. -/
def elements : List Shape :=
  [.literal "id", .classCall "AllowedFilter" "scope" [.literal "open"], .other "variable_name"]

/-- The body of a method that returns the list. -/
def returning : Tree :=
  node .block (some .body) "" [node .returnStatement none "" [listed none]]

/-- A source with that list as the default of a property and as the result of a method. -/
def listing : ParsedSource where
  label := "posts.php"
  source := ""
  tree := node .program none "" [
    node .propertyElement none "" [node .variableName (some .name) "$names" [],
      listed (some .default)],
    node .methodDeclaration none "" [node .name (some .name) "names" [], returning]]

/-- A loader that finds this source for every class. -/
def findsListing : Loader := fun _ => .ok listing

/-- The list gives two names at the call, and one in each of the other ways. -/
theorem resolve_forms_of_listing :
    Allowed.ReturnsList findsListing "Posts" "names" elements ∧
      Allowed.DefaultsToList findsListing "Posts" "names" elements ∧
      ([[.list elements], [.method "names"], [.property "names"], elements].map fun arguments =>
          Allowed.resolve findsListing ⟨.filter, "Posts", arguments⟩) =
        [[.name "id", .name "open", .unsupported], [.name "id", .unsupported, .unsupported],
          [.name "id"], [.name "id", .unsupported, .unsupported]] := by
  have returns : Allowed.ReturnsList findsListing "Posts" "names" elements := by
    have first : firstReturn? returning = some (node .returnStatement none "" [listed none]) :=
      Tree.firstWhere?_eq _ _
    refine ⟨listing, ⟨"names", some (.list elements)⟩, rfl, ?_, rfl⟩
    refine (declaredMethod?_eq listing "names").trans (congrArg some ?_)
    refine congrArg (DeclaredMethod.mk "names") ?_
    exact congrArg (Option.map fun t : Tree => Shape.ofOption t.lastPart?) first
  have defaults : Allowed.DefaultsToList findsListing "Posts" "names" elements := by
    exact ⟨listing, ⟨"names", .list elements⟩, rfl, (property?_eq listing "names").trans rfl, rfl⟩
  obtain ⟨-, method, property, arguments, -⟩ :=
    Allowed.resolve_forms findsListing .filter "Posts" elements []
  refine ⟨returns, defaults, ?_⟩
  simp only [List.map_cons, List.map_nil, method "names" [] returns, property "names" [] defaults,
    arguments "id" _ rfl]
  rfl

end Sample

end RouteDoc
