import RouteDoc.Source.Parsed

/-!
# Documentation comments above a declaration

Among the comments right before a declaration the nearest documentation comment is the one that
counts, and the others are passed over. A documentation comment begins with its mark and a blank
behind the mark; the search, however, takes every comment for one that begins with the mark. So it
stops early at a comment such as the empty one, in which the end of the mark is the beginning of the
end.

## Main statements

* `nearest_iff`: what a search among the comments finds, for any notion of a documentation comment.
* `docAbove?_nearest_iff`: the search finds the nearest documentation comment just if none of the
  comments that it should pass over begins with the mark.
* `docAbove?_hidden`: an empty comment below a documentation comment is found in its place.
-/

set_option autoImplicit false

namespace RouteDoc.ParsedSource

open Code Text

/-- Whether a text is a documentation comment: its mark, and a space, a tab or the end of a line
behind it. -/
def isDocComment (text : String) : Bool :=
  ((after? "/**".toList text.toList).bind List.head?).any fun c =>
    c == ' ' || c == '\t' || c == '\n' || c == '\r'

/-- The nearest of the comments before a declaration that `isDoc` holds of, given the siblings
before the declaration, the nearest first. What is no comment ends the search. -/
inductive Nearest (isDoc : String → Bool) : List Tree → Option String → Prop where
  | nil : Nearest isDoc [] none
  | apart {t : Tree} (ts : List Tree) (other : t.isComment = false) :
    Nearest isDoc (t :: ts) none
  | found {t : Tree} (ts : List Tree) (comment : t.isComment = true)
      (doc : isDoc t.text = true) : Nearest isDoc (t :: ts) (some t.text)
  | passed {t : Tree} {ts : List Tree} {r : Option String} (comment : t.isComment = true)
      (plain : isDoc t.text = false) (rest : Nearest isDoc ts r) : Nearest isDoc (t :: ts) r

/-- The comments right before a declaration that are to be passed over: those nearer than every
documentation comment. -/
def passedOver (siblings : List Tree) : List Tree :=
  siblings.takeWhile fun t => t.isComment && !isDocComment t.text

/-- The nearest comment is what the search in the comments right before a declaration finds. -/
theorem nearest_iff {isDoc : String → Bool} {ts : List Tree} {r : Option String} :
    Nearest isDoc ts r ↔ ((ts.takeWhile Tree.isComment).map Tree.text).find? isDoc = r := by
  constructor
  · intro nearest
    induction nearest with
    | nil => rfl
    | apart ts other => rw [List.takeWhile_cons, other]; rfl
    | found ts comment doc =>
      rw [List.takeWhile_cons, comment, if_pos rfl, List.map_cons, List.find?_cons, doc]
    | passed comment plain rest ih =>
      rw [List.takeWhile_cons, comment, if_pos rfl, List.map_cons, List.find?_cons, plain]
      exact ih
  · rintro rfl
    induction ts with
    | nil => exact .nil
    | cons t ts ih =>
      rw [List.takeWhile_cons]
      cases comment : t.isComment with
      | false => exact .apart ts comment
      | true =>
        rw [if_pos rfl, List.map_cons, List.find?_cons]
        cases doc : isDoc t.text with
        | true => exact .found ts comment doc
        | false => exact .passed comment doc ih

/-- A plain comment in between is passed over. -/
theorem nearest_cons_of_plain {isDoc : String → Bool} {t : Tree} {ts : List Tree}
    {r : Option String} (comment : t.isComment = true) (plain : isDoc t.text = false) :
    Nearest isDoc (t :: ts) r ↔ Nearest isDoc ts r := by
  rw [nearest_iff, nearest_iff, List.takeWhile_cons, comment, if_pos rfl, List.map_cons,
    List.find?_cons, plain]

/-- What is found is a documentation comment. -/
theorem Nearest.doc {isDoc : String → Bool} {ts : List Tree} {text : String}
    (h : Nearest isDoc ts (some text)) : isDoc text = true :=
  List.find?_some (nearest_iff.mp h)

/-- A documentation comment opens as one. -/
theorem opensDoc_of_isDocComment {text : String} (doc : isDocComment text = true) :
    opensDoc text = true := by
  unfold isDocComment at doc
  cases behind : after? "/**".toList text.toList with
  | none =>
    rw [behind] at doc
    cases doc
  | some rest =>
    rw [opensDoc, List.isPrefixOf_iff_prefix, eq_append_of_after? behind]
    exact List.prefix_append _ _

/-- A search for the mark finds the nearest documentation comment just if it passes over all that
are to be passed over. -/
theorem nearest_of_opensDoc_iff {ts : List Tree} {r : Option String} (found : Nearest opensDoc ts r) :
    Nearest isDocComment ts r ↔ ∀ t ∈ passedOver ts, opensDoc t.text = false := by
  induction found with
  | nil => simp [passedOver, Nearest.nil]
  | apart ts other => simp [passedOver, Nearest.apart ts other, other]
  | @found t ts comment opens =>
    cases doc : isDocComment t.text with
    | true => simp [passedOver, Nearest.found ts comment doc, doc]
    | false =>
      -- The comment is found by its mark alone, so nothing makes it the right answer.
      have wrong : ¬ Nearest isDocComment (t :: ts) (some t.text) := by
        intro right
        have isDoc := right.doc
        rw [doc] at isDoc
        cases isDoc
      simp [passedOver, wrong, comment, doc, opens]
  | @passed t ts r comment plain rest ih =>
    have doc : isDocComment t.text = false := by
      refine Bool.eq_false_iff.mpr fun isDoc => ?_
      have opens := opensDoc_of_isDocComment isDoc
      rw [plain] at opens
      cases opens
    rw [nearest_cons_of_plain comment doc, ih]
    simp [passedOver, comment, doc, plain]

/-- **The comment above a declaration.** Of the comments right before a declaration, in whatever
tree, the search finds the nearest that begins with the mark of a documentation comment, and finds
nothing if none of them does. This is the nearest documentation comment, or nothing without one,
just if none of the comments that are nearer than it, and thus are to be passed over, begins with
the mark. -/
theorem docAbove?_nearest_iff (declaration : Cursor) :
    Nearest opensDoc declaration.left (docAbove? declaration) ∧
      (Nearest isDocComment declaration.left (docAbove? declaration) ↔
        ∀ t ∈ passedOver declaration.left, opensDoc t.text = false) := by
  have found : Nearest opensDoc declaration.left (docAbove? declaration) := nearest_iff.mpr rfl
  exact ⟨found, nearest_of_opensDoc_iff found⟩

end RouteDoc.ParsedSource

namespace RouteDoc.Sample

open Code ParsedSource

/-- A method under a documentation comment and an empty comment. -/
def hidden : ParsedSource :=
  .parse "" "<?php class C\x7b/** @queryParam string q Text *//**/function m()\x7b\x7d\x7d"

/-- The documentation comment is the nearest one, and the empty comment is taken for it. -/
theorem docAbove?_hidden : ∃ declaration,
    hidden.handler? (some "C") "m" = some declaration ∧
      Nearest isDocComment declaration.left (some "/** @queryParam string q Text */") ∧
      docAbove? declaration = some "/**/" := by
  have searched : (hidden.handler? (some "C") "m").map (fun c =>
      (((c.left.takeWhile Tree.isComment).map Tree.text).find? isDocComment, docAbove? c)) =
      some (some "/** @queryParam string q Text */", some "/**/") := by
    decide +kernel
  obtain ⟨declaration, found, both⟩ := Option.map_eq_some_iff.mp searched
  obtain ⟨right, taken⟩ := Prod.mk.inj both
  exact ⟨declaration, found, nearest_iff.mpr right, taken⟩

end RouteDoc.Sample
