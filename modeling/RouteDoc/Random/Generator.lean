import RouteDoc.Random.Stream

/-!
# Drawing

A generator is a stream of words and the number of words taken from it. Numbers below a bound are
drawn without bias: a word is refused when the low half of its product with the bound lies above the
greatest multiple of the bound that fits.

## Main statements

* `below_lt`: a number drawn below a bound is below it.
-/

set_option autoImplicit false

namespace RouteDoc

open RouteDoc.Random

/-- A stream of words, and how many of them were taken. -/
structure Generator where
  /-- The key of the stream. -/
  key : Key
  /-- The number of words taken. -/
  taken : Nat := 0

namespace Generator

/-- The generator of a seed, with nothing taken. -/
def ofSeed (seed : UInt64) : Generator :=
  { key := Key.ofSeed seed }

/-- The next word. -/
def next32 (g : Generator) : UInt32 × Generator :=
  (g.key.word g.taken, { g with taken := g.taken + 1 })

/-- The next two words as one number, the low half first. -/
def next64 (g : Generator) : UInt64 × Generator :=
  let (lo, g) := g.next32
  let (hi, g) := g.next32
  (lo.toUInt64 ||| (hi.toUInt64 <<< 32), g)

/-- The greatest low half of a product that is not refused for the bound `n`. -/
def zone (n : Nat) : Nat :=
  n <<< (31 - Nat.log2 n) - 1

/-- How many words are refused at most. Each is refused with probability below one half. -/
def patience : Nat := 256

/-- A number below `n`, for `0 < n < 2³²`. -/
def below (g : Generator) (n : Nat) : Nat × Generator :=
  go n patience g
where
  /-- Draws while patience lasts. -/
  go (n : Nat) : Nat → Generator → Nat × Generator
    | 0, g =>
      let (w, g) := g.next32
      (w.toNat * n / UInt32.size, g)
    | tries + 1, g =>
      let (w, g) := g.next32
      let product := w.toNat * n
      if product % UInt32.size ≤ zone n then (product / UInt32.size, g) else go n tries g

/-- A word as a fraction of all words, times a bound, is below the bound. -/
theorem word_mul_div_lt (w : UInt32) {n : Nat} (pos : 0 < n) : w.toNat * n / UInt32.size < n := by
  rw [Nat.div_lt_iff_lt_mul (by decide), Nat.mul_comm n]
  exact Nat.mul_lt_mul_of_pos_right w.toNat_lt pos

/-- A number drawn below a bound is below it. -/
theorem below_lt (g : Generator) {n : Nat} (pos : 0 < n) : (g.below n).1 < n := by
  suffices ∀ tries g, (below.go n tries g).1 < n from this _ _
  intro tries
  induction tries with
  | zero => intro g; exact word_mul_div_lt _ pos
  | succ tries ih =>
    intro g
    simp only [below.go]
    split
    · exact word_mul_div_lt _ pos
    · exact ih _

/-- A truth value, each with the same probability. -/
def flag (g : Generator) : Bool × Generator :=
  let (w, g) := g.next64
  (w < 0x8000000000000000, g)

/-- A number from one to a thousand. -/
def identifier (g : Generator) : Nat × Generator :=
  let (n, g) := g.below 1000
  (n + 1, g)

/-- The elements in a random order: from the last place down to the second, each place is swapped
with a place at or before it. -/
def shuffle {α : Type} (g : Generator) (l : List α) : List α × Generator :=
  let (a, g) := go (l.length - 1) l.toArray g
  (a.toList, g)
where
  /-- Settles the places from `i` down to the second. -/
  go : Nat → Array α → Generator → Array α × Generator
    | 0, a, g => (a, g)
    | i + 1, a, g =>
      let (j, g) := g.below (i + 2)
      go i (a.swapIfInBounds (i + 1) j) g

end Generator

end RouteDoc
