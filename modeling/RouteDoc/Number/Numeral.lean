import RouteDoc.Number.Double

/-!
# Numerals in two roundings

A numeral with a fraction or a power of ten, or one that is too long for 64 bits, stands for a
double that may be off by a little: its first digits, as many as fit into 64 bits, are rounded to a
double, and that double is multiplied or divided by a power of ten which was rounded too.
-/

set_option autoImplicit false

namespace RouteDoc.Number

/-- The first digits of a numeral as one number, with the power of ten that goes with it. -/
structure Leading where
  /-- The number. -/
  significand : Nat := 0
  /-- The power of ten. -/
  exponent : Int := 0
deriving DecidableEq, Repr

namespace Leading

/-- The number with a digit more, if it fits into 64 bits. -/
def extend? (x : Leading) (c : Char) : Option Nat :=
  ((digit? 10 c).map (x.significand * 10 + ·)).filter (· ≤ max64)

/-- The digits before the point. From the first on that does not fit they count by their places
only. -/
def addWhole (x : Leading) : List Char → Leading
  | [] => x
  | c :: cs =>
    match x.extend? c with
    | some n => addWhole { x with significand := n } cs
    | none => { x with exponent := x.exponent + (c :: cs).length }

/-- The digits behind the point. From the first on that does not fit they do not count. -/
def addFraction (x : Leading) : List Char → Leading
  | [] => x
  | c :: cs =>
    match x.extend? c with
    | some n => addFraction ⟨n, x.exponent - 1⟩ cs
    | none => x

end Leading

namespace Double

/-- The double nearest to `num / den * 2 ^ e`. -/
def ofBinary (num den : Nat) (e : Int) : Double :=
  if num = 0 then .finite false 0 (-1074)
  else if 0 ≤ e then ofFraction false (num <<< e.toNat) den
  else ofFraction false num (den <<< (-e).toNat)

/-- The greatest power of ten that a double can hold. -/
def greatestPower : Nat := 308

/-- The double nearest to the product of the value `m * 2 ^ k` with the double nearest to a power of
ten, or to their quotient if the power is negative. -/
def timesPower (m : Nat) (k e : Int) : Double :=
  match ofFraction false (Nat.pow 10 e.natAbs) 1 with
  | .finite _ p q => if 0 ≤ e then ofBinary (m * p) 1 (k + q) else ofBinary m p (k - q)
  | x => x

/-- A double times a power of ten; powers that no double can hold are taken in steps. -/
def scale : Nat → Double → Int → Double
  | 0, x, _ => x
  | n + 1, x, e =>
    match x with
    | .finite _ m k =>
      if m = 0 then x
      else if e.natAbs ≤ greatestPower then timesPower m k e
      else if 0 ≤ e then .infinite false
      else scale n (timesPower m k (-greatestPower)) (e + greatestPower)
    | x => x

/-- The magnitude of a numeral. Two steps of its scaling leave nothing of a number of 64 bits. -/
def ofLeading (x : Leading) : Double :=
  scale 3 (ofBinary x.significand 1 0) x.exponent

/-- The double with a sign. -/
def signed (negative : Bool) : Double → Double
  | .finite _ m k => .finite negative m k
  | .infinite _ => .infinite negative
  | .nan => .nan

end Double

end RouteDoc.Number
