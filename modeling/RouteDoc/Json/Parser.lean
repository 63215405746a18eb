import RouteDoc.Json.Basic
import RouteDoc.Number.Numeral

/-!
# Reading JSON

A strict reader of JSON texts. Blank space is the space, the tab, the line feed and the carriage
return. A whole number of 64 bits is kept as such, and every other number becomes a finite double,
as `Number.Double.ofLeading` says. Of two members with one name the later one counts. A lone
surrogate is refused.

## Implementation notes

Each step takes the rest of the text and returns what is left of it. The nesting of a text is
bounded by its length, which is the fuel of the reader.
-/

set_option autoImplicit false

namespace RouteDoc.Json

open Number

/-- Whether a character may stand between two tokens. -/
private def isSpace (c : Char) : Bool :=
  c == ' ' || c == '\t' || c == '\n' || c == '\r'

/-- The text from its first token on. -/
private def skip (s : List Char) : List Char :=
  s.dropWhile isSpace

/-- Four hexadecimal digits and what follows. -/
private def hex4? : List Char → Option (Nat × List Char)
  | a :: b :: c :: d :: rest => (natural? 16 [a, b, c, d]).map (·, rest)
  | _ => none

/-- The character that an escape stands for, after its backslash, and what follows. -/
private def escape? : List Char → Option (Char × List Char)
  | '"' :: r => some ('"', r)
  | '\\' :: r => some ('\\', r)
  | '/' :: r => some ('/', r)
  | 'b' :: r => some ('\x08', r)
  | 'f' :: r => some ('\x0c', r)
  | 'n' :: r => some ('\n', r)
  | 'r' :: r => some ('\r', r)
  | 't' :: r => some ('\t', r)
  | 'u' :: r => do
    let (hi, r) ← hex4? r
    if 0xD800 ≤ hi ∧ hi < 0xDC00 then
      match r with
      | '\\' :: 'u' :: r =>
        let (lo, r) ← hex4? r
        if 0xDC00 ≤ lo ∧ lo < 0xE000 then
          some (Char.ofNat (0x10000 + (hi - 0xD800) * 0x400 + (lo - 0xDC00)), r)
        else none
      | _ => none
    else if 0xDC00 ≤ hi ∧ hi < 0xE000 then none
    else some (Char.ofNat hi, r)
  | _ => none

/-- The characters of a string up to its closing quote, in reverse, and what follows. -/
private def chars? : Nat → List Char → List Char → Option (List Char × List Char)
  | 0, _, _ => none
  | fuel + 1, acc, s =>
    match s with
    | '"' :: r => some (acc, r)
    | '\\' :: r =>
      match escape? r with
      | some (c, r) => chars? fuel (c :: acc) r
      | none => none
    | c :: r => if c.toNat < 0x20 then none else chars? fuel (c :: acc) r
    | [] => none

/-- A string, after its opening quote. -/
private def string? (s : List Char) : Option (String × List Char) :=
  (chars? (s.length + 1) [] s).map fun (cs, r) => (String.ofList cs.reverse, r)

/-- A number and what follows. -/
private def number? (s : List Char) : Option (Json × List Char) := do
  let (negative, body) := match s with
    | '-' :: r => (true, r)
    | r => (false, r)
  let whole := body.takeWhile Char.isDigit
  let rest := body.dropWhile Char.isDigit
  if whole.isEmpty || (whole.length > 1 && whole.head? == some '0') then none
  let (part, rest) ← match rest with
    | '.' :: r =>
      if (r.takeWhile Char.isDigit).isEmpty then none
      else some (some (r.takeWhile Char.isDigit), r.dropWhile Char.isDigit)
    | r => some (none, r)
  let (power, rest) ← match rest with
    | e :: r =>
      if e == 'e' || e == 'E' then
        let (minus, r) := match r with
          | '-' :: r => (true, r)
          | '+' :: r => (false, r)
          | r => (false, r)
        let n ← natural? 10 (r.takeWhile Char.isDigit)
        some (some (if minus then -(n : Int) else n), r.dropWhile Char.isDigit)
      else some (none, e :: r)
    | [] => some (none, [])
  match part, power with
  | none, none =>
    let n ← natural? 10 whole
    if negative && 0 < n && n ≤ half64 then some (.int (-(n : Int)), rest)
    else if !negative && n ≤ max64 then some (.int n, rest)
    else real negative whole [] 0 rest
  | _, _ => real negative whole (part.getD []) (power.getD 0) rest
where
  real (negative : Bool) (whole part : List Char) (power : Int) (rest : List Char) :
      Option (Json × List Char) :=
    let x := (({} : Leading).addWhole whole).addFraction part
    match Double.ofLeading { x with exponent := x.exponent + power } with
    | .infinite _ => none
    | x => some (.real (x.signed negative), rest)

/-- The elements of an array up to its closing bracket, after the first position of an element. -/
private def items? (value? : List Char → Option (Json × List Char)) :
    Nat → List Char → Option (List Json × List Char)
  | 0, _ => none
  | fuel + 1, s => do
    let (v, r) ← value? s
    match skip r with
    | ']' :: r => some ([v], r)
    | ',' :: r =>
      let (vs, r) ← items? value? fuel r
      some (v :: vs, r)
    | _ => none

/-- The members of an object up to its closing brace, added to those before. -/
private def members? (value? : List Char → Option (Json × List Char)) :
    Nat → List (String × Json) → List Char → Option (List (String × Json) × List Char)
  | 0, _, _ => none
  | fuel + 1, acc, s => do
    match skip s with
    | '"' :: r =>
      let (key, r) ← string? r
      match skip r with
      | ':' :: r =>
        let (v, r) ← value? r
        let acc := setMember acc key v
        match skip r with
        | '}' :: r => some (acc, r)
        | ',' :: r => members? value? fuel acc r
        | _ => none
      | _ => none
    | _ => none

/-- A value and what follows, nested at most `fuel` deep. -/
private def value? : Nat → List Char → Option (Json × List Char)
  | 0, _ => none
  | fuel + 1, s =>
    match skip s with
    | 'n' :: 'u' :: 'l' :: 'l' :: r => some (.null, r)
    | 't' :: 'r' :: 'u' :: 'e' :: r => some (.bool true, r)
    | 'f' :: 'a' :: 'l' :: 's' :: 'e' :: r => some (.bool false, r)
    | '"' :: r => (string? r).map fun (t, r) => (.str t, r)
    | '[' :: r =>
      match skip r with
      | ']' :: r => some (.arr [], r)
      | r => (items? (value? fuel) (r.length + 1) r).map fun (vs, r) => (.arr vs, r)
    | '{' :: r =>
      match skip r with
      | '}' :: r => some (.obj [], r)
      | r => (members? (value? fuel) (r.length + 1) [] r).map fun (ms, r) => (.obj ms, r)
    | r => number? r

/-- The value that a whole text stands for. -/
def parse? (text : String) : Option Json :=
  let s := text.toList
  match value? (s.length + 1) s with
  | some (v, r) => if (skip r).isEmpty then some v else none
  | none => none

end RouteDoc.Json
