import RouteDoc.Allowed.Basic
import RouteDoc.Proofs.Code.Weaving
import RouteDoc.Proofs.Source.Search

/-!
# Comments do not count

What is inferred of a source is read off its tree: the first builder call in a handler, the shapes
of what is passed to it, the default of a property, what a method returns first. Where comments are
taken out of the tree, each of these stays as it is.

## Main statements

* `Shape.ofTree_cleared`: a tree has the shape it has without comments.
* `ParsedSource.property?_cleared`, `ParsedSource.declaredMethod?_cleared`,
  `ParsedSource.handler?_cleared`: the answers of a source without comments.
* `resolve_uncommented`: the same builder calls are found, and they allow the same values.
-/

set_option autoImplicit false

namespace RouteDoc

open Code Tree

/-! ## Literals -/

/-- No comment fills a hole. -/
theorem heedless_fills : Heedless fills :=
  heedless_of_label
    (fun l => l.kind != .token && !(l.kind == .comment) && l.kind != .stringContent)
    fun l comment _ => by
      rw [comment]
      rfl

/-- Nothing interpolates in a string just if no hole of it is filled. -/
theorem all_stringContent_iff {t : Code.Tree}
    (hole : t.children.any isComment = true → t.children.any fills = true) :
    t.parts.all (·.kind == .stringContent) = true ↔ t.children.any fills = false := by
  rw [List.all_eq_true, List.any_eq_false]
  constructor
  · intro content c mem fill
    simp only [fills, Bool.and_eq_true, bne_iff_ne, ne_eq] at fill
    exact fill.2 (beq_iff_eq.mp (content c (List.mem_filter.mpr ⟨mem, fill.1.1⟩)))
  · intro unfilled c mem
    obtain ⟨mem, part⟩ := List.mem_filter.mp mem
    have noComment : c.isComment = false := by
      by_contra comment
      obtain ⟨d, below, fill⟩ :=
        List.any_eq_true.mp (hole (List.any_eq_true.mpr ⟨c, mem, by simpa using comment⟩))
      exact unfilled d below fill
    have := unfilled c mem
    simpa [fills, part, noComment] using this

/-- A string with comments left in it has a hole that is still filled. -/
theorem Code.Tree.Cleared.hole {t u : Code.Tree} (h : Cleared t u)
    (quoted : t.kind = .encapsedString) :
    u.children.any isComment = true → u.children.any fills = true := by
  intro some
  rw [h.below.any heedless_fills]
  obtain ⟨d, mem, comment⟩ := List.any_eq_true.mp some
  obtain ⟨c, mem, cleared⟩ := h.below.exists_of_mem mem
  have same : c.isComment = d.isComment := congrArg (·.kind == .comment) cleared.label.symm
  exact h.apart.tidy.hole quoted (List.any_eq_true.mpr ⟨c, mem, same.trans comment⟩)

/-- The value of a literal is the same, since in a string with comments something interpolates. -/
theorem stringValue?_cleared {t u : Code.Tree} (h : Cleared t u) :
    u.stringValue? = t.stringValue? := by
  rw [stringValue?, stringValue?, h.kind, h.text]
  split
  next => rfl
  next quoted =>
    have same : u.parts.all (·.kind == .stringContent) =
        t.parts.all (·.kind == .stringContent) := by
      rw [Bool.eq_iff_iff, all_stringContent_iff (h.hole quoted),
        all_stringContent_iff (h.apart.tidy.hole quoted), h.below.any heedless_fills]
    rw [same]
  next => rfl

/-! ## Shapes -/

namespace Shape

/-- An access to a member of the object names the same member. -/
theorem ownMember?_cleared {t u : Code.Tree} (h : Cleared t u) : ownMember? u = ownMember? t := by
  rw [ownMember?, ownMember?]
  generalize t.inRole? .object = a, u.inRole? .object = b, t.inRole? .name = c,
    u.inRole? .name = d, h.inRole? .object = object, h.inRole? .name = name
  cases object with
  | none => rfl
  | some object =>
    cases name with
    | none => rfl
    | some name => simp only [object.kind, object.text, name.kind, name.text]

/-- A call of a static method names the same class and method. -/
theorem classMethod?_cleared {t u : Code.Tree} (h : Cleared t u) :
    classMethod? u = classMethod? t := by
  rw [classMethod?, classMethod?]
  generalize t.inRole? .scope = a, u.inRole? .scope = b, t.inRole? .name = c,
    u.inRole? .name = d, h.inRole? .scope = scope, h.inRole? .name = name
  cases scope with
  | none => rfl
  | some scope =>
    cases name with
    | none => rfl
    | some name => simp only [scope.kind, scope.text, name.text]

/-- The children give the same shapes, in whatever way they are read. -/
structure Same (ts us : List Code.Tree) : Prop where
  last : ∀ default, lastAmong default us = lastAmong default ts
  elements : elements us = elements ts
  arguments : argumentsAmong us = argumentsAmong ts
  passed : passed us = passed ts

mutual
/-- A tree has the same shape without comments. -/
theorem ofTree_cleared : ∀ {t u : Code.Tree}, Cleared t u → ofTree u = ofTree t
  | .node l cs, .node l' ds, h => by
    have label : l' = l := h.label
    subst label
    have below : Same cs ds := same_cleared h.below
    rw [ofTree, ofTree, stringValue?_cleared h, ownMember?_cleared h, classMethod?_cleared h,
      below.elements, below.arguments, below.last]
theorem same_cleared : ∀ {ts us : List Code.Tree}, ClearedAll ts us → Same ts us
  | [], us, h => by
    rw [h.of_nil]
    exact ⟨fun _ => rfl, rfl, rfl, rfl⟩
  | .node l cs :: ts, us, h => by
    rcases h.of_cons with ⟨⟨l', ds⟩, vs, rfl, first, rest⟩ | ⟨comment, tidy, rest⟩
    · have label : l' = l := first.label
      subst label
      have here := ofTree_cleared first
      have below : Same cs ds := same_cleared first.below
      have behind := same_cleared rest
      refine ⟨fun default => ?_, ?_, ?_, ?_⟩
      · rw [lastAmong, lastAmong, here, behind.last]
      · rw [elements, elements, below.last, behind.elements]
      · rw [argumentsAmong, argumentsAmong, below.passed, behind.arguments]
      · rw [passed, passed, below.last, behind.passed]
    · have kind : l.kind = .comment := beq_iff_eq.mp comment
      have role : l.role = none := tidy.roleless comment
      have uncounted : counts l = false := by rw [counts, kind]; rfl
      have behind := same_cleared rest
      refine ⟨fun default => ?_, ?_, ?_, ?_⟩
      · rw [lastAmong, uncounted, behind.last]
        rfl
      · rw [elements, if_neg (by rw [kind]; decide), behind.elements]
      · rw [argumentsAmong, if_neg (by rw [role]; decide), behind.arguments]
      · rw [passed, uncounted, behind.passed]
        rfl
end

theorem ofOption_of_rel {a b : Option Code.Tree} (h : Option.Rel Cleared a b) :
    ofOption b = ofOption a := by
  rw [ofOption, ofOption, map_of_rel ofTree_cleared h]

theorem argumentsOf_cleared {t u : Code.Tree} (h : Cleared t u) : argumentsOf u = argumentsOf t :=
  (same_cleared h.below).arguments

end Shape

/-! ## Answers of a source -/

/-- A search from the root finds the same node without comments. -/
theorem rel_firstWhere? {p : Code.Tree → Bool} (heedless : Heedless p) {t u : Code.Tree}
    (h : Cleared t u) : Option.Rel Cleared (t.firstWhere? p) (u.firstWhere? p) := by
  rw [firstWhere?_eq, firstWhere?_eq]
  exact h.find?_preorder heedless

/-- Whether a node calls a certain method does not hang on comments. -/
theorem BuilderCall.heedless_isCallOf (method : String) : Heedless (isCallOf method) := by
  have call : Heedless fun t =>
      t.kind == .memberCallExpression || t.kind == .nullsafeMemberCallExpression :=
    heedless_of_label
      (fun l => l.kind == .memberCallExpression || l.kind == .nullsafeMemberCallExpression)
      fun l comment _ => by
        rw [comment]
        rfl
  refine call.and fun {t u} h => ?_
  generalize t.inRole? .name = a, u.inRole? .name = b, h.inRole? .name = name
  cases name with
  | none => rfl
  | some name => rw [Option.any_some, Option.any_some, name.kind, name.text]

/-- The same builder calls are found in a handler. -/
theorem BuilderCall.find?_cleared {t u : Code.Tree} (h : Cleared t u) (c : Capability)
    (owner : String) : find? u c owner = find? t c owner := by
  have same : ∀ {s v : Code.Tree}, Cleared s v →
      BuilderCall.mk c owner (Shape.argumentsOf v) = ⟨c, owner, Shape.argumentsOf s⟩ :=
    fun h => by rw [Shape.argumentsOf_cleared h]
  exact map_of_rel same (rel_firstWhere? (heedless_isCallOf c.builderMethod) h)

namespace ParsedSource

/-- Whether a node declares something by a certain name does not hang on comments. -/
theorem heedless_named {k : Kind} (other : k ≠ .comment) (name : String) :
    Heedless fun t => t.kind == k && t.textInRole? .name == some name :=
  (heedless_kind other).and fun h => by rw [h.textInRole?]

/-- The variable of a property is known by its role or by its kind, and a comment has neither. -/
theorem propertyVariable?_cleared {t u : Code.Tree} (h : Cleared t u) :
    Option.Rel Cleared (propertyVariable? t) (propertyVariable? u) :=
  rel_or (h.inRole? .name) (h.ofKind? (by decide))

/-- A property has the same default, in whatever place the tree has it. -/
theorem propertyDefault?_cleared {t u : Code.Tree} (h : Cleared t u) :
    Option.Rel Cleared (propertyDefault? t) (propertyDefault? u) := by
  have initializers := h.ofKind? (show Kind.propertyInitializer ≠ .comment by decide)
  refine rel_or (h.inRole? .default) ?_
  generalize t.ofKind? .propertyInitializer = a, u.ofKind? .propertyInitializer = b at initializers
  cases initializers with
  | some initializer => exact initializer.lastPart?
  | none =>
    have names := propertyVariable?_cleared h
    generalize propertyVariable? t = v, propertyVariable? u = w at names
    cases names with
    | none => exact .none
    | some name => exact rel_filter (fun one => by rw [one.label, name.label]) h.lastPart?

/-- What is known of a property's default does not hang on comments. -/
theorem defaultOf_cleared {t u : Code.Tree} (h : Cleared t u) : defaultOf u = defaultOf t :=
  Shape.ofOption_of_rel (propertyDefault?_cleared h)

/-- Whether a node declares a property of that name does not hang on comments. -/
theorem heedless_isProperty (name : String) : Heedless (isProperty name) :=
  (heedless_kind (by decide)).and fun h => by
    rw [map_of_rel Cleared.text (propertyVariable?_cleared h)]

/-- What a method first returns does not hang on comments, nor whether it returns anything. -/
theorem returnOf_cleared {t u : Code.Tree} (h : Cleared t u) : returnOf u = returnOf t := by
  have bodies := h.inRole? .body
  have returns : Option.Rel Cleared ((t.inRole? .body).bind firstReturn?)
      ((u.inRole? .body).bind firstReturn?) :=
    rel_bind (rel_firstWhere? (heedless_kind (by decide))) bodies
  exact map_of_rel (fun one => Shape.ofOption_of_rel one.lastPart?) returns

variable {u v : ParsedSource} (h : Cleared u.tree v.tree)
include h

/-- A property is declared in the same way without comments. -/
theorem property?_cleared (name : String) : v.property? name = u.property? name := by
  have same : ∀ {s t : Code.Tree}, Cleared s t →
      DeclaredProperty.mk name (defaultOf t) = ⟨name, defaultOf s⟩ :=
    fun h => by rw [defaultOf_cleared h]
  exact map_of_rel same (rel_firstWhere? (heedless_isProperty name) h)

/-- A method is declared in the same way without comments. -/
theorem declaredMethod?_cleared (name : String) :
    v.declaredMethod? name = u.declaredMethod? name := by
  have same : ∀ {s t : Code.Tree}, Cleared s t →
      DeclaredMethod.mk name (returnOf t) = ⟨name, returnOf s⟩ :=
    fun h => by rw [returnOf_cleared h]
  rw [declaredMethod?_eq, declaredMethod?_eq]
  exact map_of_rel same (h.find?_preorder (heedless_named (by decide) name))

/-- Handlers are looked for in the same class. -/
theorem scope_cleared (className : Option String) :
    Cleared (u.scope className) (v.scope className) := by
  have declarations : Option.Rel Cleared ((className.bind u.class?).map Cursor.focus)
      ((className.bind v.class?).map Cursor.focus) := by
    cases className with
    | none => exact .none
    | some className => exact rel_firstWhere? (heedless_named (by decide) (unqualified className)) h
  rw [scope, scope]
  generalize (className.bind u.class?).map Cursor.focus = a,
    (className.bind v.class?).map Cursor.focus = b at declarations
  cases declarations with
  | none => exact h
  | some declaration => exact declaration

/-- The same handler is found, but for comments in it. -/
theorem handler?_cleared (className : Option String) (method : String) :
    Option.Rel Cleared ((u.handler? className method).map Cursor.focus)
      ((v.handler? className method).map Cursor.focus) :=
  rel_firstWhere? (heedless_named (by decide) method) (scope_cleared h className)

end ParsedSource

/-! ## Allowed values -/

/-- Two loaders that find the same sources, of which the second has fewer comments, and fail for the
same classes. -/
inductive Loader.Uncommented (load load' : Loader) (className : String) : Prop where
  | found {u v : ParsedSource} (loaded : load className = .ok u) (loaded' : load' className = .ok v)
      (apart : u.tree.CommentsApart) (uncommented : u.tree.Uncommented v.tree)
  | missing {e e' : Fault} (loaded : load className = .error e)
      (loaded' : load' className = .error e')

section Loaders

variable {load load' : Loader} {owner : String} (sources : load.Uncommented load' owner)
include sources

/-- A property allows the same values, whichever of the two sources is loaded. -/
theorem Allowed.ofProperty_uncommented (name : String) :
    ofProperty load' owner name = ofProperty load owner name := by
  cases sources with
  | found loaded loaded' apart uncommented =>
    rw [ofProperty, ofProperty, loaded, loaded']
    simp only [ParsedSource.property?_cleared ⟨apart, uncommented⟩]
  | missing loaded loaded' => rw [ofProperty, ofProperty, loaded, loaded']

/-- A method allows the same values, whichever of the two sources is loaded. -/
theorem Allowed.ofMethod_uncommented (name : String) :
    ofMethod load' owner name = ofMethod load owner name := by
  cases sources with
  | found loaded loaded' apart uncommented =>
    rw [ofMethod, ofMethod, loaded, loaded']
    simp only [ParsedSource.declaredMethod?_cleared ⟨apart, uncommented⟩]
  | missing loaded loaded' => rw [ofMethod, ofMethod, loaded, loaded']

end Loaders

/-- The builder call for a capability in the handler of a class. -/
def ParsedSource.call? (u : ParsedSource) (className method : String) (c : Capability) :
    Option BuilderCall :=
  ((u.handler? (some className) method).map Cursor.focus).bind (BuilderCall.find? · c className)

/-- **Comments do not count.** In every tree that is parsed comments stand apart; and of a tree in
which they do, as many as one likes may be taken out: the same builder calls are found in it as in a
handler, and in the handlers of the classes of the source; its properties and methods are the same;
and any builder call allows the same values, where comments may be taken out of the source that
declares its class as well. -/
theorem resolve_uncommented :
    (∀ label source, (ParsedSource.parse label source).tree.CommentsApart) ∧
    ∀ u v : ParsedSource, u.tree.CommentsApart → u.tree.Uncommented v.tree →
      (∀ c owner, BuilderCall.find? v.tree c owner = BuilderCall.find? u.tree c owner) ∧
      (∀ className method c, v.call? className method c = u.call? className method c) ∧
      (∀ name, v.property? name = u.property? name) ∧
      (∀ name, v.declaredMethod? name = u.declaredMethod? name) ∧
      ∀ (load load' : Loader) (call : BuilderCall), load.Uncommented load' call.owner →
        Allowed.resolve load' call = Allowed.resolve load call := by
  refine ⟨fun _ => commentsApart_parse, fun u v apart uncommented => ?_⟩
  have cleared : Cleared u.tree v.tree := ⟨apart, uncommented⟩
  refine ⟨BuilderCall.find?_cleared cleared, fun className method c => ?_,
    ParsedSource.property?_cleared cleared, ParsedSource.declaredMethod?_cleared cleared,
    fun load load' call sources => ?_⟩
  · exact bind_of_rel (fun one => BuilderCall.find?_cleared one c className)
      (ParsedSource.handler?_cleared cleared (some className) method)
  · rw [Allowed.resolve, Allowed.resolve]
    simp only [Allowed.ofProperty_uncommented sources, Allowed.ofMethod_uncommented sources]

/-- A source whose tree has no comments. -/
def ParsedSource.bare (u : ParsedSource) : ParsedSource :=
  { u with tree := u.tree.bare }

/-- A source without comments is one of which comments were taken out. -/
theorem ParsedSource.uncommented_bare (u : ParsedSource) : u.tree.Uncommented u.bare.tree :=
  Tree.uncommented_bare u.tree

namespace Sample

/-- A source with comments in the default of a property, in a list that is returned in parentheses,
and among the arguments of a call. -/
def remarked : ParsedSource :=
  .parse "" ("<?php class P\x7b var $s = [/*a*/ 'id']; function f() \x7b return ([$this->s, " ++
    "'x' /*b*/] /*c*/); \x7d function index() \x7b $q->allowedFilters(/*d*/ $this->f()); \x7d \x7d")

/-- Without its comments it says the same. -/
theorem resolve_uncommented_remarked :
    remarked.tree.CommentsApart ∧ remarked.tree.Uncommented remarked.bare.tree ∧
    remarked.tree.preorder.countP isComment = 4 ∧ remarked.bare.tree.preorder.countP isComment = 0 ∧
    (∀ owner, Loader.Uncommented (fun _ => .ok remarked) (fun _ => .ok remarked.bare) owner) ∧
    ∃ call, remarked.bare.call? "P" "index" .filter = some call ∧
      Allowed.resolve (fun _ => .ok remarked.bare) call = [.unsupported, .name "x"] := by
  have facts : remarked.tree.preorder.countP isComment = 4 ∧
      remarked.bare.tree.preorder.countP isComment = 0 ∧
      (remarked.call? "P" "index" .filter).map (Allowed.resolve fun _ => .ok remarked) =
        some [.unsupported, .name "x"] := by
    decide +kernel
  obtain ⟨some, none, resolved⟩ := facts
  obtain ⟨parsed, same⟩ := resolve_uncommented
  have apart : remarked.tree.CommentsApart := parsed _ _
  have uncommented := remarked.uncommented_bare
  have sources : ∀ owner,
      Loader.Uncommented (fun _ => .ok remarked) (fun _ => .ok remarked.bare) owner :=
    fun _ => .found rfl rfl apart uncommented
  obtain ⟨-, calls, -, -, values⟩ := same remarked remarked.bare apart uncommented
  obtain ⟨call, found, resolved⟩ := Option.map_eq_some_iff.mp resolved
  refine ⟨apart, uncommented, some, none, sources, call, ?_, ?_⟩
  · rw [calls, found]
  · rw [values _ _ call (sources _), resolved]

end Sample

end RouteDoc
