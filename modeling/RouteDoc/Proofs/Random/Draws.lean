import RouteDoc.Random.Generator

/-!
# What can be drawn

Bounds on what a generator gives that hold whatever its state is: an identifier lies between one and
a thousand, and a shuffled list has the elements that it had. Of shuffling this needs no more than
that it is a run of swaps, from the last place down to the second; which places are drawn for them
does not matter.

## Main statements

* `exists_shuffle_eq`: shuffling is a run of swaps, each with a place at or before the one swapped.
* `perm_swapDown`: a run of swaps keeps the elements, whatever the places are.
-/

set_option autoImplicit false

namespace RouteDoc.Generator

/-- An identifier is at least one. -/
theorem identifier_pos (g : Generator) : 1 ≤ g.identifier.1 :=
  Nat.le_add_left 1 _

theorem identifier_le (g : Generator) : g.identifier.1 ≤ 1000 :=
  g.below_lt (by decide)

/-- A swap moves elements and loses none, also where a place is missing. -/
theorem perm_swapIfInBounds {α : Type} (a : Array α) (i j : Nat) :
    (a.swapIfInBounds i j).toList.Perm a.toList := by
  rw [Array.swapIfInBounds_def]
  split
  next hi =>
    split
    next hj => exact (Array.swap_perm hi hj).toList
    next => exact .refl _
  next => exact .refl _

/-- Swaps each place, from that of the length of the list down to the second, with the place that
the list has for it. -/
def swapDown {α : Type} : List Nat → Array α → Array α
  | [], a => a
  | j :: js, a => swapDown js (a.swapIfInBounds (js.length + 1) j)

/-- The places are at or before those that they are for. -/
def AtOrBefore : List Nat → Prop
  | [] => True
  | j :: js => j ≤ js.length + 1 ∧ AtOrBefore js

/-- Each swap keeps the elements, so the run keeps them. -/
theorem perm_swapDown {α : Type} (places : List Nat) (a : Array α) :
    (swapDown places a).toList.Perm a.toList := by
  induction places generalizing a with
  | nil => exact .refl _
  | cons j js ih => exact (ih _).trans (perm_swapIfInBounds a _ _)

/-- From a place on, each swap is with a place that was drawn at or before it. -/
theorem exists_shuffle_go_eq {α : Type} (i : Nat) (a : Array α) (g : Generator) :
    ∃ places, places.length = i ∧ AtOrBefore places ∧ (shuffle.go i a g).1 = swapDown places a := by
  induction i generalizing a g with
  | zero => exact ⟨[], rfl, trivial, rfl⟩
  | succ i ih =>
    obtain ⟨places, length, before, run⟩ :=
      ih (a.swapIfInBounds (i + 1) (g.below (i + 2)).1) (g.below (i + 2)).2
    have drawn : (g.below (i + 2)).1 < i + 2 := g.below_lt (Nat.succ_pos _)
    refine ⟨(g.below (i + 2)).1 :: places, ?_, ⟨?_, before⟩, ?_⟩
    · rw [List.length_cons, length]
    · omega
    · rw [swapDown, length]
      exact run

/-- **Shuffling is a run of swaps,** one for each place but the first. -/
theorem exists_shuffle_eq {α : Type} (g : Generator) (l : List α) :
    ∃ places, places.length = l.length - 1 ∧ AtOrBefore places ∧
      (g.shuffle l).1 = (swapDown places l.toArray).toList := by
  obtain ⟨places, length, before, run⟩ := exists_shuffle_go_eq (l.length - 1) l.toArray g
  exact ⟨places, length, before, congrArg Array.toList run⟩

/-- A shuffled list has the elements that it had. -/
theorem perm_shuffle {α : Type} (g : Generator) (l : List α) : (g.shuffle l).1.Perm l := by
  obtain ⟨places, -, -, run⟩ := g.exists_shuffle_eq l
  rw [run]
  exact perm_swapDown places l.toArray

end RouteDoc.Generator
