/-!
# Numerals

Digits and numerals of a base: the value of a list of digits, the digits of a number, and readers
for signed and unsigned whole numbers of a bounded range.

## Main statements

* `ofDigits_digits`: the digits of a number have that number as their value.
-/

set_option autoImplicit false

namespace RouteDoc.Number

/-- The value of a digit in bases up to sixteen, letters of either case included. -/
def digit? (base : Nat) (c : Char) : Option Nat :=
  let v :=
    if '0' ≤ c ∧ c ≤ '9' then c.toNat - '0'.toNat
    else if 'a' ≤ c ∧ c ≤ 'f' then c.toNat - 'a'.toNat + 10
    else if 'A' ≤ c ∧ c ≤ 'F' then c.toNat - 'A'.toNat + 10
    else base
  if v < base then some v else none

/-- The number that digits stand for, the most significant first. -/
def ofDigits (base : Nat) (ds : List Nat) : Nat :=
  ds.foldl (fun n d => n * base + d) 0

/-- The digits of a number to base ten, the least significant first; zero has one digit. -/
def digitsRev (n : Nat) : List Nat :=
  if n < 10 then [n] else n % 10 :: digitsRev (n / 10)

/-- The digits of a number to base ten, the most significant first. -/
def digits (n : Nat) : List Nat :=
  (digitsRev n).reverse

/-- The digits of a number have that number as their value. -/
theorem ofDigits_digits (n : Nat) : ofDigits 10 (digits n) = n := by
  simp only [digits, ofDigits, List.foldl_reverse]
  fun_induction digitsRev n with
  | case1 n h => simp
  | case2 n h ih => rw [List.foldr_cons, ih]; omega

/-- The character of a digit below ten. -/
def digitChar (d : Nat) : Char :=
  Char.ofNat ('0'.toNat + d)

/-- The numeral of a number to base ten. -/
def decimalText (n : Nat) : List Char :=
  (digits n).map digitChar

/-- The number that a text of digits alone stands for; the empty text stands for none. -/
def natural? (base : Nat) (s : List Char) : Option Nat :=
  if s.isEmpty then none else (s.mapM (digit? base)).map (ofDigits base)

/-- A whole number between `0` and `hi`, with or without a plus sign. -/
def unsigned? (hi : Nat) (s : List Char) : Option Nat :=
  let body := match s with
    | '+' :: r => r
    | r => r
  (natural? 10 body).filter (· ≤ hi)

/-- The number `2⁶³`, the least that does not fit into 64 bits with a sign. -/
def half64 : Nat := UInt64.size / 2

/-- A whole number from `-2⁶³` to `2⁶³ - 1`, with or without a sign. -/
def signed64? (s : List Char) : Option Int :=
  match s with
  | '-' :: r => ((natural? 10 r).filter (· ≤ half64)).map fun n => -(n : Int)
  | r => (unsigned? (half64 - 1) r).map Int.ofNat

/-- The greatest number of 64 bits. -/
def max64 : Nat := UInt64.size - 1

end RouteDoc.Number
