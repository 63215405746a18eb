import RouteDoc.Number.Double
import RouteDoc.Settings.Value

/-!
# Scalars of TOML

Readers of strings, numbers, truth values and moments, each from the front of a text. Numbers are
whole numbers of 64 bits and doubles; underscores stand between digits only, and leading zeros are
refused. A moment is a date, a time or both; it is kept by its canonical text.
-/

set_option autoImplicit false

namespace RouteDoc.Toml

open Number

/-- A reader of the front of a text. -/
abbrev Reader (α : Type) := StateT (List Char) Option α

/-- What is left of the text. -/
def rest : Reader (List Char) := fun s => some (s, s)

/-- Takes a text. -/
def literal (t : List Char) : Reader Unit := fun s =>
  (Text.after? t s).map ((), ·)

/-- Takes a character with a property. -/
def satisfy (p : Char → Bool) : Reader Char := fun s =>
  match s with
  | c :: r => if p c then some (c, r) else none
  | [] => none

/-- Takes the characters of a class. -/
def takeWhile (p : Char → Bool) : Reader (List Char) := fun s =>
  some (s.takeWhile p, s.dropWhile p)

/-- Takes that many characters of a class. -/
def takeExactly (n : Nat) (p : Char → Bool) : Reader (List Char) := fun s =>
  if (s.take n).length = n ∧ (s.take n).all p then some (s.take n, s.drop n) else none

/-- Whether the text goes on with `t`. -/
def comes (t : String) : Reader Bool := fun s => some (t.toList.isPrefixOf s, s)

/-! ## Strings -/

/-- Whether a character may stand in a comment or a string: it is a tab or no control. -/
def isPlain (c : Char) : Bool :=
  c == '\t' || (0x20 ≤ c.toNat && c.toNat ≠ 0x7F)

/-- Whether a character is a blank within a line. -/
def isBlank (c : Char) : Bool := c == ' ' || c == '\t'

/-- The character that an escape stands for, behind its backslash, and what follows. -/
def escape? : List Char → Option (Char × List Char)
  | 'b' :: r => some ('\x08', r)
  | 't' :: r => some ('\t', r)
  | 'n' :: r => some ('\n', r)
  | 'f' :: r => some ('\x0c', r)
  | 'r' :: r => some ('\r', r)
  | '"' :: r => some ('"', r)
  | '\\' :: r => some ('\\', r)
  | 'u' :: r => codePoint 4 r
  | 'U' :: r => codePoint 8 r
  | _ => none
where
  codePoint (width : Nat) (r : List Char) : Option (Char × List Char) := do
    if (r.take width).length ≠ width then none
    let n ← natural? 16 (r.take width)
    if n < 0xD800 ∨ (0xDFFF < n ∧ n < 0x110000) then some (Char.ofNat n, r.drop width) else none

/-- The characters of a string in double quotes up to its closing quote, and what follows. -/
def basicChars : Nat → List Char → Option (List Char × List Char)
  | 0, _ => none
  | fuel + 1, s =>
    match s with
    | '"' :: r => some ([], r)
    | '\\' :: r => do
      let (c, r) ← escape? r
      let (cs, r) ← basicChars fuel r
      some (c :: cs, r)
    | c :: r => do
      if !isPlain c then none
      let (cs, r) ← basicChars fuel r
      some (c :: cs, r)
    | [] => none

/-- The characters of a string in single quotes up to its closing quote, and what follows. -/
def literalChars : List Char → Option (List Char × List Char)
  | '\'' :: r => some ([], r)
  | c :: r => do
    if !isPlain c then none
    let (cs, r) ← literalChars r
    some (c :: cs, r)
  | [] => none

/-- What follows a line break that is escaped: the text from the next visible character on. -/
def foldLines (s : List Char) : Option (List Char) :=
  match s.dropWhile isBlank with
  | '\n' :: r => some (skip (r.length + 1) r)
  | '\r' :: '\n' :: r => some (skip (r.length + 1) r)
  | _ => none
where
  skip : Nat → List Char → List Char
    | 0, s => s
    | n + 1, s =>
      match s with
      | '\r' :: '\n' :: r => skip n r
      | c :: r => if isBlank c || c == '\n' then skip n r else s
      | [] => []

/-- The quotes that belong to a string before the three that close it, and what follows, where a
text begins with three quotes or more. -/
def closeQuotes? (quote : Char) (s : List Char) : Option (List Char × List Char) :=
  let n := (s.takeWhile (· == quote)).length
  if n < 3 then none
  else
    let inner := min (n - 3) 2
    some (List.replicate inner quote, s.drop (inner + 3))

/-- The characters of a string of several lines up to its closing quotes, and what follows. Only
between double quotes does a backslash escape. -/
def multiChars (quote : Char) : Nat → List Char → Option (List Char × List Char)
  | 0, _ => none
  | fuel + 1, s =>
    match closeQuotes? quote s with
    | some r => some r
    | none =>
      match s with
      | '\\' :: r =>
        if quote == '"' then
          match escape? r with
          | some (c, r) => add c (multiChars quote fuel r)
          | none => (foldLines r).bind (multiChars quote fuel)
        else add '\\' (multiChars quote fuel r)
      | '\r' :: '\n' :: r | '\n' :: r => add '\n' (multiChars quote fuel r)
      | c :: r => if isPlain c then add c (multiChars quote fuel r) else none
      | [] => none
where
  add (c : Char) (r : Option (List Char × List Char)) : Option (List Char × List Char) :=
    r.map fun (cs, r) => (c :: cs, r)

/-- The text without a line break at its beginning. -/
def dropNewline : List Char → List Char
  | '\n' :: r => r
  | '\r' :: '\n' :: r => r
  | s => s

/-- A string on one line. -/
def lineString : Reader String := fun s =>
  let r := match s with
    | '"' :: r => basicChars (r.length + 1) r
    | '\'' :: r => literalChars r
    | _ => none
  r.map fun (cs, r) => (String.ofList cs, r)

/-- A string. -/
def string : Reader String := fun s =>
  match s with
  | '"' :: '"' :: '"' :: r => multi '"' r
  | '\'' :: '\'' :: '\'' :: r => multi '\'' r
  | s => lineString s
where
  multi (quote : Char) (r : List Char) : Option (String × List Char) :=
    (multiChars quote (r.length + 1) (dropNewline r)).map fun (cs, r) => (String.ofList cs, r)

/-! ## Numbers -/

/-- Digits with single underscores between them, as digits alone. -/
def digitRun (p : Char → Bool) : Reader (List Char) := do
  let s ← takeWhile fun c => p c || c == '_'
  let groups := s.splitOn '_'
  if groups.any List.isEmpty then failure else return groups.flatten

/-- A sign, and whether it is a minus. -/
def sign : Reader Bool := fun s =>
  match s with
  | '-' :: r => some (true, r)
  | '+' :: r => some (false, r)
  | s => some (false, s)

/-- The digits of a whole number without leading zeros. -/
def wholeDigits : Reader (List Char) := do
  let ds ← digitRun Char.isDigit
  if 1 < ds.length && ds.head? == some '0' then failure else return ds

/-- A whole number of 64 bits. -/
def bounded (i : Int) : Reader Setting :=
  if -(half64 : Int) ≤ i ∧ i < half64 then return .int i else failure

/-- A whole number to a base that a mark in front names. -/
def based (base : Nat) : Reader Setting := do
  let ds ← digitRun fun c => (digit? base c).isSome
  match natural? base ds with
  | some n => bounded n
  | none => failure

/-- A whole number. -/
def integer : Reader Setting := do
  if ← comes "0x" then
    literal "0x".toList
    based 16
  else if ← comes "0o" then
    literal "0o".toList
    based 8
  else if ← comes "0b" then
    literal "0b".toList
    based 2
  else
    let minus ← sign
    match natural? 10 (← wholeDigits) with
    | some n => bounded (if minus then -(n : Int) else n)
    | none => failure

/-- A power of ten, if one comes. -/
def power : Reader (Option Int) := fun s =>
  match s with
  | e :: r =>
    if e == 'e' || e == 'E' then
      (do
        let minus ← sign
        let ds ← digitRun Char.isDigit
        match natural? 10 ds with
        | some n => return some (if minus then -(n : Int) else n)
        | none => failure : Reader (Option Int)) r
    else some (none, s)
  | [] => some (none, s)

/-- A number with a fraction or a power of ten, or one of the words for what has no digits. -/
def float : Reader Setting := do
  let minus ← sign
  if ← comes "inf" then
    literal "inf".toList
    return .real (.infinite minus)
  else if ← comes "nan" then
    literal "nan".toList
    return .real .nan
  else
    let whole ← wholeDigits
    let part ←
      if ← comes "." then
        literal ['.']
        let ds ← digitRun Char.isDigit
        pure (some ds)
      else pure none
    let e ← power
    if part.isNone && e.isNone then failure
    else
      let ds := part.getD []
      match natural? 10 (whole ++ ds) with
      | some n =>
        match Double.ofDecimal ⟨minus, n, e.getD 0 - ds.length⟩ with
        | .infinite false => failure
        | x => return .real x
      | none => failure

/-! ## Moments -/

/-- A number of that many digits up to a bound. -/
def field (width lo hi : Nat) : Reader Nat := do
  match natural? 10 (← takeExactly width Char.isDigit) with
  | some n => if lo ≤ n ∧ n ≤ hi then return n else failure
  | none => failure

/-- The number of days of a month. -/
def daysOf (year month : Nat) : Nat :=
  if month = 2 then
    if year % 4 = 0 ∧ (year % 100 ≠ 0 ∨ year % 400 = 0) then 29 else 28
  else if month = 4 ∨ month = 6 ∨ month = 9 ∨ month = 11 then 30
  else 31

/-- A number with zeros in front up to a width. -/
def padded (width n : Nat) : List Char :=
  let ds := decimalText n
  List.replicate (width - ds.length) '0' ++ ds

/-- A date, by its text. -/
def date : Reader (List Char) := do
  let y ← field 4 0 9999
  literal ['-']
  let m ← field 2 1 12
  literal ['-']
  let d ← field 2 1 (daysOf y m)
  return padded 4 y ++ '-' :: padded 2 m ++ '-' :: padded 2 d

/-- A fraction of a second, by its text: up to nine digits without trailing zeros. -/
def secondFraction : Reader (List Char) := do
  if ← comes "." then
    literal ['.']
    let ds ← takeWhile Char.isDigit
    if ds.isEmpty then failure
    else
      let kept := ((ds.take 9).reverse.dropWhile (· == '0')).reverse
      return if kept.isEmpty then [] else '.' :: kept
  else return []

/-- A time of day, by its text. -/
def time : Reader (List Char) := do
  let h ← field 2 0 23
  literal [':']
  let m ← field 2 0 59
  literal [':']
  let s ← field 2 0 60
  let f ← secondFraction
  return padded 2 h ++ ':' :: padded 2 m ++ ':' :: padded 2 s ++ f

/-- The distance of a time from universal time, by its text, if one comes. -/
def offset : Reader (List Char) := do
  match ← rest with
  | 'Z' :: _ | 'z' :: _ => do
    let _ ← satisfy fun _ => true
    return ['Z']
  | '+' :: _ | '-' :: _ => do
    let c ← satisfy fun _ => true
    let h ← field 2 0 23
    literal [':']
    let m ← field 2 0 59
    return c :: padded 2 h ++ ':' :: padded 2 m
  | _ => return []

/-- What separates a date from a time. -/
def separator : Reader Unit := do
  let _ ← satisfy fun c => c == 'T' || c == 't' || c == ' '

/-- A moment. -/
def moment : Reader Setting := do
  let text ← (do
      let d ← date
      let t ← (do
          separator
          let t ← time
          return 'T' :: t ++ (← offset)) <|> pure []
      return d ++ t) <|> time
  return .moment (String.ofList text)

/-- A truth value. -/
def bool : Reader Setting := do
  if ← comes "true" then
    literal "true".toList
    return .bool true
  else
    literal "false".toList
    return .bool false

/-- A scalar. -/
def scalar : Reader Setting := do
  match ← rest with
  | '"' :: _ | '\'' :: _ => return .text (← string)
  | 't' :: _ | 'f' :: _ => bool
  | _ => moment <|> float <|> integer

end RouteDoc.Toml
