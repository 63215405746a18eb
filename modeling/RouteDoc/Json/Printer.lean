import RouteDoc.Json.Basic

/-!
# Writing JSON

Two layouts of one grammar: `compact` on one line without blanks, and `pretty` with one element or
member a line, two spaces of indentation a level, and nothing between the brackets of an empty array
or object. A string escapes the quote, the backslash and the controls below U+0020.
-/

set_option autoImplicit false

namespace RouteDoc.Json

open Number

/-- A hexadecimal digit, in small letters. -/
private def hexDigit (n : Nat) : Char :=
  if n < 10 then Char.ofNat ('0'.toNat + n) else Char.ofNat ('a'.toNat + (n - 10))

/-- The spelling of one character within quotes. -/
def escapeChar (c : Char) : List Char :=
  if c == '"' then ['\\', '"']
  else if c == '\\' then ['\\', '\\']
  else if c == '\x08' then ['\\', 'b']
  else if c == '\x0c' then ['\\', 'f']
  else if c == '\n' then ['\\', 'n']
  else if c == '\r' then ['\\', 'r']
  else if c == '\t' then ['\\', 't']
  else if c.toNat < 0x20 then
    ['\\', 'u', '0', '0', hexDigit (c.toNat / 16), hexDigit (c.toNat % 16)]
  else [c]

/-- A string in quotes. -/
def quote (s : String) : String :=
  String.ofList ('"' :: s.toList.flatMap escapeChar ++ ['"'])

/-- The text of a value that is neither an array nor an object. -/
private def scalar : Json → String
  | .null => "null"
  | .bool b => if b then "true" else "false"
  | .int i => if i < 0 then "-" ++ String.ofList (decimalText i.natAbs)
    else String.ofList (decimalText i.natAbs)
  | .real x => match x with
    | .finite .. => String.ofList (x.toText .json)
    | _ => "null"
  | .str s => quote s
  | _ => ""

mutual
/-- The value on one line. -/
def compact : Json → String
  | .arr items => "[" ++ compactItems items ++ "]"
  | .obj members => "\x7b" ++ compactMembers members ++ "\x7d"
  | v => scalar v
/-- The elements of an array, with commas between them. -/
def compactItems : List Json → String
  | [] => ""
  | [v] => compact v
  | v :: vs => compact v ++ "," ++ compactItems vs
/-- The members of an object, with commas between them. -/
def compactMembers : List (String × Json) → String
  | [] => ""
  | [(k, v)] => quote k ++ ":" ++ compact v
  | (k, v) :: ms => quote k ++ ":" ++ compact v ++ "," ++ compactMembers ms
end

/-- A line break and the indentation of a level. -/
private def newLine (depth : Nat) : String :=
  "\n" ++ String.ofList (List.replicate (2 * depth) ' ')

mutual
/-- The value over several lines, at a level of indentation. -/
def prettyAt (depth : Nat) : Json → String
  | .arr [] => "[]"
  | .arr items => "[" ++ prettyItems (depth + 1) items ++ newLine depth ++ "]"
  | .obj [] => "\x7b\x7d"
  | .obj members => "\x7b" ++ prettyMembers (depth + 1) members ++ newLine depth ++ "\x7d"
  | v => scalar v
/-- The elements of an array, each on a line of its own. -/
def prettyItems (depth : Nat) : List Json → String
  | [] => ""
  | [v] => newLine depth ++ prettyAt depth v
  | v :: vs => newLine depth ++ prettyAt depth v ++ "," ++ prettyItems depth vs
/-- The members of an object, each on a line of its own. -/
def prettyMembers (depth : Nat) : List (String × Json) → String
  | [] => ""
  | [(k, v)] => newLine depth ++ quote k ++ ": " ++ prettyAt depth v
  | (k, v) :: ms =>
    newLine depth ++ quote k ++ ": " ++ prettyAt depth v ++ "," ++ prettyMembers depth ms
end

/-- The value over several lines. -/
def pretty (v : Json) : String :=
  prettyAt 0 v

end RouteDoc.Json
