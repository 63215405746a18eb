import RouteDoc.Number.Digits

/-!
# Binary fractions of double precision

A finite double is a sign, a significand below `2⁵³` and a power of two from `2⁻¹⁰⁷⁴` on. A decimal
is read to the nearest of them, an exact half going to the even significand, and a double is written
with the fewest digits that read back to it.

## Implementation notes

All arithmetic is on natural numbers. A double's interval (the reals that read as it) reaches half a
unit up and half a unit down, a quarter below a power of two, with both ends included when the
significand is even.
-/

set_option autoImplicit false

namespace RouteDoc.Number

/-- A number of double precision. -/
inductive Double where
  /-- The value `significand * 2 ^ exponent`, negated if so marked. -/
  | finite (negative : Bool) (significand : Nat) (exponent : Int)
  /-- An infinity. -/
  | infinite (negative : Bool)
  /-- No number. -/
  | nan
deriving DecidableEq, Repr

/-- A decimal fraction: `digits * 10 ^ exponent`, negated if so marked. -/
structure Decimal where
  /-- Whether a minus sign stands before it. -/
  negative : Bool
  /-- Its digits read as one number. -/
  digits : Nat
  /-- The power of ten. -/
  exponent : Int
deriving DecidableEq, Repr

/-- The numerator and the denominator of `n * base ^ e`. -/
def fraction (base n : Nat) (e : Int) : Nat × Nat :=
  if 0 ≤ e then (n * Nat.pow base e.toNat, 1) else (n, Nat.pow base (-e).toNat)

/-- The quotient to the nearest whole number, a half going to the even one. -/
def roundHalfEven (num den : Nat) : Nat :=
  let q := num / den
  let r := num % den
  if 2 * r < den then q else if den < 2 * r then q + 1 else q + q % 2

namespace Double

/-- The quotient `num / den` in units of `2 ^ k`, as a fraction. -/
private def inUnits (num den : Nat) (k : Int) : Nat × Nat :=
  if 0 ≤ k then (num, den <<< k.toNat) else (num <<< (-k).toNat, den)

/-- The double nearest to `num / den`, where `num` is positive. -/
def ofFraction (negative : Bool) (num den : Nat) : Double :=
  let guess : Int := max (Nat.log2 num - Nat.log2 den - 53 : Int) (-1074)
  let (n, d) := inUnits num den guess
  -- The guess is right or one too low.
  let k := if n / d < 1 <<< 53 then guess else guess + 1
  let (n, d) := inUnits num den k
  let m := roundHalfEven n d
  let (m, k) := if m < 1 <<< 53 then (m, k) else (m / 2, k + 1)
  if 971 < k then .infinite negative else .finite negative m k

/-- The double nearest to a decimal. -/
def ofDecimal (x : Decimal) : Double :=
  let size : Int := (digits x.digits).length + x.exponent
  if x.digits = 0 ∨ size < -400 then .finite x.negative 0 (-1074)
  else if 400 < size then .infinite x.negative
  else
    let (n, d) := fraction 10 x.digits x.exponent
    ofFraction x.negative n d

/-- Whether the double is a zero of either sign. -/
def isZero : Double → Bool
  | .finite _ m _ => m == 0
  | _ => false

/-- The nearest whole number of 64 bits, a half going away from zero; what lies outside the range
goes to its nearer end, and no number goes to zero. -/
def round64 : Double → Nat
  | .finite true _ _ => 0
  | .finite false m k =>
    let n := if 0 ≤ k then m <<< k.toNat else (2 * m + 1 <<< (-k).toNat) >>> ((-k).toNat + 1)
    min n max64
  | .infinite negative => if negative then 0 else max64
  | .nan => 0

/-- The exponent of the leading digit of `num / den`: the power of ten at or below it. -/
def leading (num den : Nat) : Int :=
  if den ≤ num then ((digits (num / den)).length : Int) - 1
  else -((digits ((den - 1) / num)).length : Int)

/-- The multiple of `10 ^ p` nearest to `4 * m * 2 ^ k / 4` that lies in the interval of the double,
if its neighbours on that grid hold one. -/
private def onGrid? (m : Nat) (k : Int) (p : Int) : Option Nat :=
  let below := if m = 1 <<< 52 ∧ -1074 < k then 1 else 2
  -- All in quarters of the unit `2 ^ k`, over the common denominator `10 ^ p`.
  let (u, d) := fraction 2 1 k
  let (a, b) := fraction 10 1 p
  let unit := u * b
  let grid := 4 * d * a
  let value := 4 * m * unit
  let lo := (4 * m - below) * unit
  let hi := (4 * m + 2) * unit
  let fits (q : Nat) : Bool :=
    if m % 2 = 0 then lo ≤ q * grid && q * grid ≤ hi else lo < q * grid && q * grid < hi
  let down := value / grid
  let up := down + 1
  match fits down, fits up with
  | true, true =>
    let toDown := value - down * grid
    let toUp := up * grid - value
    if toDown < toUp then some down else if toUp < toDown then some up
    else some (if down % 2 = 0 then down else up)
  | true, false => some down
  | false, true => some up
  | false, false => none

/-- The fewest digits that read back to the positive double `m * 2 ^ k`, as a whole number and a
power of ten: the first grid of one, two, … seventeen digits that meets the interval. -/
def shortest (m : Nat) (k : Int) : Nat × Int :=
  let (n, d) := fraction 2 m k
  let top := leading n d
  go m k top 17 1
where
  /-- Tries `count` digits and then more, while any tries are left. -/
  go (m : Nat) (k top : Int) : Nat → Nat → Nat × Int
    | 0, _ => (m, k)
    | tries + 1, count =>
      let p := top - ((count : Int) - 1)
      match onGrid? m k p with
      | some q => (q, p)
      | none => go m k top tries (count + 1)

/-- How a double is spelt: where positional writing ends, and the texts of what has no digits. -/
structure Spelling where
  /-- The least exponent of the leading digit that is written without a power of ten. -/
  least : Int
  /-- The greatest exponent of the leading digit that is written without a power of ten. -/
  greatest : Int
  /-- Whether a whole number is written with a fraction of one zero. -/
  point : Bool
deriving DecidableEq, Repr

/-- Positional writing throughout, whole numbers without a fraction. -/
def Spelling.plain : Spelling := ⟨-400, 400, false⟩

/-- Positional writing from a ten-thousandth on and below ten to the sixteenth, whole numbers with a
fraction; outside that range one digit, the other digits after a point, and a power of ten. -/
def Spelling.json : Spelling := ⟨-5, 15, true⟩

/-- A number of zeros. -/
private def zeros (n : Nat) : List Char :=
  List.replicate n '0'

/-- The text of the digits `ds` of which the first stands for `10 ^ top`. -/
private def layOut (f : Spelling) (ds : List Char) (top : Int) : List Char :=
  if f.least ≤ top ∧ top ≤ f.greatest then
    if top < 0 then ['0', '.'] ++ zeros ((-top).toNat - 1) ++ ds
    else
      let whole := top.toNat + 1
      if ds.length ≤ whole then
        ds ++ zeros (whole - ds.length) ++ (if f.point then ['.', '0'] else [])
      else ds.take whole ++ '.' :: ds.drop whole
  else
    let power := (if top < 0 then ['-'] else []) ++ decimalText top.natAbs
    match ds with
    | [d] => d :: 'e' :: power
    | d :: rest => d :: '.' :: rest ++ 'e' :: power
    | [] => []

/-- The digits of a number without its trailing zeros, and how many were dropped. -/
private def significant (n : Nat) : List Char × Nat :=
  let ds := decimalText n
  let kept := (ds.reverse.dropWhile (· == '0')).reverse
  (kept, ds.length - kept.length)

/-- The text of a double: the fewest digits that read back to it, laid out by `f`. -/
def toText (f : Spelling) : Double → List Char
  | .nan => "NaN".toList
  | .infinite negative => (if negative then ['-'] else []) ++ "inf".toList
  | .finite negative m k =>
    let body :=
      if m = 0 then '0' :: (if f.point then ['.', '0'] else [])
      else
        let (q, p) := shortest m k
        let (ds, dropped) := significant q
        layOut f ds (p + dropped + ds.length - 1)
    (if negative then ['-'] else []) ++ body

/-- Reads a decimal with an optional sign, an optional fraction and an optional power of ten, of
which either the whole part or the fraction may be missing, or a word for infinity or for no number.
-/
def read? (s : List Char) : Option Double :=
  let (negative, body) := match s with
    | '-' :: r => (true, r)
    | '+' :: r => (false, r)
    | r => (false, r)
  let lower := body.map Char.toLower
  if lower = "inf".toList ∨ lower = "infinity".toList then some (.infinite negative)
  else if lower = "nan".toList then some .nan
  else
    let whole := body.takeWhile Char.isDigit
    let rest := body.dropWhile Char.isDigit
    let (part, rest) := match rest with
      | '.' :: r => (r.takeWhile Char.isDigit, r.dropWhile Char.isDigit)
      | r => ([], r)
    if whole.isEmpty && part.isEmpty then none
    else
      let power : Option Int := match rest with
        | [] => some 0
        | e :: r =>
          if e == 'e' || e == 'E' then
            match r with
            | '-' :: r => (natural? 10 r).map fun n => -(n : Int)
            | '+' :: r => (natural? 10 r).map Int.ofNat
            | r => (natural? 10 r).map Int.ofNat
          else none
      power.bind fun e =>
        (natural? 10 (whole ++ part)).map fun n => ofDecimal ⟨negative, n, e - part.length⟩

end Double

end RouteDoc.Number
