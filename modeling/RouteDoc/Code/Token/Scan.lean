import RouteDoc.Code.Token

/-!
# Scanning code into tokens

The scanner reads one lexeme, or a few that belong together, at each step. What a lexeme may be
depends on the innermost construct that is open: code, an interpolated string, a shell command or a
here-document. Braces within a string open code again, up to the brace that closes them.

## Implementation notes

A step says how many characters each lexeme takes. A scan is bounded by the number of characters
that are left, since every step takes at least one.
-/

set_option autoImplicit false

namespace RouteDoc.Code.Scan

open Token

/-- A construct that is open. -/
inductive Mode where
  /-- Code between braces. -/
  | block
  /-- Code between braces within a string. -/
  | hole
  /-- A string in double quotes. -/
  | quote
  /-- A shell command. -/
  | shell
  /-- A here-document with its label. -/
  | document (label : List Char)
deriving DecidableEq, Repr

/-- A lexeme: its kind, or none if it is blank, and how many characters it takes. -/
abbrev Lexeme := Option TokenKind × Nat

/-- The number of characters at the start of a text that are of a class. -/
def count (p : Char → Bool) (s : List Char) : Nat :=
  (s.takeWhile p).length

/-! ## Outside the code -/

/-- The width of the mark that opens code, at the start of a text. -/
def openMark? (s : List Char) : Option Nat :=
  match s with
  | '<' :: '?' :: '=' :: _ => some 3
  | '<' :: '?' :: p :: h :: q :: _ =>
    some (if [p, h, q].map Char.toLower = ['p', 'h', 'p'] then 5 else 2)
  | '<' :: '?' :: _ => some 2
  | _ => none

/-- The number of characters before the mark that opens code, and the width of that mark; there is
none at the end of the text. -/
def outside : List Char → Nat × Nat
  | [] => (0, 0)
  | c :: cs =>
    match openMark? (c :: cs) with
    | some width => (0, width)
    | none =>
      let (n, width) := outside cs
      (n + 1, width)

/-! ## Comments, numbers and strings in single quotes -/

/-- The width of a comment that ends with its line or with the stretch of code. A question mark
takes the character behind it along, so `??>` does not end the stretch. -/
def lineComment : List Char → Nat
  | [] => 0
  | '\n' :: _ | '\r' :: _ => 0
  | '?' :: '>' :: _ => 0
  | '?' :: c :: cs => if c == '\n' || c == '\r' then 1 else lineComment cs + 2
  | _ :: cs => lineComment cs + 1

/-- The width of a text up to the end of a comment between marks, the mark included. -/
def blockComment : List Char → Nat
  | [] => 0
  | '*' :: '/' :: _ => 2
  | _ :: cs => blockComment cs + 1

/-- The width of a text up to its closing single quote, the quote included. -/
def singleQuoted : List Char → Nat
  | [] => 0
  | '\'' :: _ => 1
  | '\\' :: _ :: cs => singleQuoted cs + 2
  | _ :: cs => singleQuoted cs + 1

/-- Whether a character may stand in a number: digits may be set apart by low lines. -/
private def isDigitOrLine (c : Char) : Bool := c.isDigit || c == '_'

/-- The width of a power of ten at the start of a text. -/
def power (s : List Char) : Nat :=
  match s with
  | e :: r =>
    if e == 'e' || e == 'E' then
      match r with
      | d :: _ =>
        if d.isDigit then 1 + count isDigitOrLine r
        else if (d == '+' || d == '-') && ((r.drop 1).head?.any Char.isDigit) then
          2 + count isDigitOrLine (r.drop 1)
        else 0
      | [] => 0
    else 0
  | [] => 0

/-- The number at the start of a text. -/
def number (s : List Char) : Lexeme :=
  match s with
  | '0' :: b :: _ =>
    if ['x', 'b', 'o'].contains b.toLower then
      (some .integer, 2 + count (fun c => c.isAlphanum || c == '_') (s.drop 2))
    else decimal s
  | _ => decimal s
where
  decimal (s : List Char) : Lexeme :=
    let whole := count isDigitOrLine s
    let r := s.drop whole
    let part := match r with
      | '.' :: '.' :: _ => 0
      | '.' :: r => 1 + count isDigitOrLine r
      | _ => 0
    let power := power (r.drop part)
    (some (if part + power = 0 then .integer else .float), whole + part + power)

/-! ## Here-documents -/

/-- The width of the closing label at the start of a line, with the blanks before it. -/
def closing? (label line : List Char) : Option Nat :=
  let indent := count (fun c => c == ' ' || c == '\t') line
  let r := line.drop indent
  if label.isPrefixOf r && !((r.drop label.length).head?.any isNameChar) then
    some (indent + label.length)
  else none

/-- The start of a here-document: whether it interpolates, its label, and the width up to the end of
the label. -/
structure DocStart where
  /-- Whether it interpolates. -/
  interpolates : Bool
  /-- The label. -/
  label : List Char
  /-- The width of the start. -/
  width : Nat

/-- The start of a here-document at the start of a text. -/
def docStart? (s : List Char) : Option DocStart :=
  match s with
  | '<' :: '<' :: '<' :: r =>
    let blanks := count (fun c => c == ' ' || c == '\t') r
    let r := r.drop blanks
    let (quote, r) := match r with
      | '\'' :: r => (some '\'', r)
      | '"' :: r => (some '"', r)
      | r => (none, r)
    let label := r.takeWhile isNameChar
    let r := r.drop label.length
    let width := 3 + blanks + label.length
    if label.isEmpty then none
    else
      match quote with
      | none => some ⟨true, label, width⟩
      | some q => if r.head? == some q then some ⟨q == '"', label, width + 2⟩ else none
  | _ => none

/-- The width of the lines of a here-document up to its closing label, the label included. -/
def documentBody (label : List Char) : List Char → Nat
  | [] => 0
  | c :: cs =>
    if c == '\n' then
      match closing? label cs with
      | some width => 1 + width
      | none => documentBody label cs + 1
    else documentBody label cs + 1

/-! ## Code -/

/-- The operators and marks of more than one character, longer ones first. -/
def symbols : List (List Char) :=
  ["<<=", ">>=", "**=", "...", "<=>", "===", "!==", "??=", "?->", "==", "!=", "<>", "<=", ">=", "&&",
    "||", "??", "++", "--", "+=", "-=", "*=", "/=", ".=", "%=", "&=", "|=", "^=", "->", "=>", "::",
    "<<", ">>", "**", "#["].map String.toList

/-- The operator or mark at the start of a text. -/
def symbol (s : List Char) : Lexeme :=
  (some .symbol, ((symbols.find? (·.isPrefixOf s)).map List.length).getD 1)

/-- The constructs that are open behind an operator or mark. -/
def afterSymbol (modes : List Mode) (c : Char) : List Mode :=
  if c == '{' then .block :: modes
  else if c == '}' then
    match modes with
    | .block :: up | .hole :: up => up
    | up => up
  else modes

/-- A step in code, before a text that begins with `c`. -/
def codeStep (modes : List Mode) (c : Char) (cs : List Char) : List Lexeme × List Mode :=
  let s := c :: cs
  if isSpace c then ([(none, count isSpace s)], modes)
  else
    match s with
    | '?' :: '>' :: r =>
      let (n, width) := outside r
      ([(some .island, 2 + n + width)], modes)
    | '#' :: '[' :: _ => ([symbol s], modes)
    | '#' :: _ | '/' :: '/' :: _ => ([(some .comment, lineComment s)], modes)
    | '/' :: '*' :: r => ([(some .comment, 2 + blockComment r)], modes)
    | '\'' :: r => ([(some .string, 1 + singleQuoted r)], modes)
    | 'b' :: '\'' :: r | 'B' :: '\'' :: r => ([(some .string, 2 + singleQuoted r)], modes)
    | '"' :: _ => ([(some .quoteOpen, 1)], .quote :: modes)
    | 'b' :: '"' :: _ | 'B' :: '"' :: _ => ([(some .quoteOpen, 2)], .quote :: modes)
    | '\x60' :: _ => ([(some .shellQuote, 1)], .shell :: modes)
    | _ =>
      match docStart? s with
      | some d =>
        if d.interpolates then ([(some .docOpen, d.width)], .document d.label :: modes)
        else ([(some .nowdoc, d.width + documentBody d.label (s.drop d.width))], modes)
      | none =>
        if c.isDigit || (c == '.' && cs.head?.any Char.isDigit) then ([number s], modes)
        else if isNameStart c then ([(some .word, count isNameChar s)], modes)
        else ([symbol s], afterSymbol modes c)

/-! ## Interpolated text -/

/-- Whether a text begins with an interpolation. -/
def opensHole (s : List Char) : Bool :=
  match s with
  | '$' :: '{' :: _ | '{' :: '$' :: _ => true
  | '$' :: c :: _ => isNameStart c
  | _ => false

/-- The width of the text that stands for itself, up to an interpolation or to `close`. -/
def plain (close : Char) : List Char → Nat
  | [] => 0
  | '\\' :: _ :: cs => plain close cs + 2
  | c :: cs => if c == close || opensHole (c :: cs) then 0 else plain close cs + 1

/-- The width of the text of a here-document that stands for itself, up to an interpolation or to
the closing label, and the width of that label. -/
def plainDocument (label : List Char) : List Char → Nat × Option Nat
  | [] => (0, none)
  | '\\' :: c :: cs =>
    if c == '\n' || c == '\r' then more 1 (plainDocument label (c :: cs))
    else more 2 (plainDocument label cs)
  | c :: cs =>
    if opensHole (c :: cs) then (0, none)
    else
      match c == '\n', closing? label cs with
      | true, some width => (1, some width)
      | _, _ => more 1 (plainDocument label cs)
where
  more (n : Nat) (r : Nat × Option Nat) : Nat × Option Nat := (r.1 + n, r.2)

/-- The offset in brackets behind a variable in a string. -/
def bracketed? (s : List Char) : Option (List Lexeme) :=
  match s with
  | '[' :: r =>
    let (sign, r) : List Lexeme × List Char := match r with
      | '-' :: r => ([(some .symbol, 1)], r)
      | r => ([], r)
    let (dollar, r) : List Lexeme × List Char := match r with
      | '$' :: r => ([(some .symbol, 1)], r)
      | r => ([], r)
    let width := count isNameChar r
    let kind : TokenKind := if r.head?.any Char.isDigit then .integer else .word
    if width ≠ 0 ∧ (r.drop width).head? = some ']' then
      some ([(some .symbol, 1)] ++ sign ++ dollar ++ [(some kind, width), (some .symbol, 1)])
    else none
  | _ => none

/-- The member behind a variable in a string. -/
def arrow? (s : List Char) : Option (List Lexeme) :=
  match s with
  | '-' :: '>' :: r => member 2 r
  | '?' :: '-' :: '>' :: r => member 3 r
  | _ => none
where
  member (width : Nat) (r : List Char) : Option (List Lexeme) :=
    if r.head?.any isNameStart then some [(some .symbol, width), (some .word, count isNameChar r)]
    else none

/-- A step at an interpolation. -/
def holeStep (modes : List Mode) (s : List Char) : List Lexeme × List Mode :=
  match s with
  | '{' :: _ => ([(some .symbol, 1)], .hole :: modes)
  | '$' :: '{' :: _ => ([(some .symbol, 1), (some .symbol, 1)], .hole :: modes)
  | _ :: r =>
    let width := count isNameChar r
    let behind := r.drop width
    let access := ((bracketed? behind).or (arrow? behind)).getD []
    ([(some .symbol, 1), (some .word, width)] ++ access, modes)
  | [] => ([], modes)

/-- A step in a text that `close` closes. -/
def textStep (kind : TokenKind) (close : Char) (modes up : List Mode) (s : List Char) :
    List Lexeme × List Mode :=
  if s.head? == some close then ([(some kind, 1)], up)
  else if opensHole s then holeStep modes s
  else ([(some .fragment, plain close s)], modes)

/-- A step in a here-document. -/
def documentStep (label : List Char) (modes up : List Mode) (s : List Char) :
    List Lexeme × List Mode :=
  if opensHole s then holeStep modes s
  else
    match plainDocument label s with
    | (n, some width) => ([(some .fragment, n), (some .docClose, width)], up)
    | (n, none) => ([(some .fragment, n)], modes)

/-- The lexemes of a step, and the constructs that are open behind them. -/
def step (modes : List Mode) (c : Char) (cs : List Char) : List Lexeme × List Mode :=
  match modes with
  | .quote :: up => textStep .quoteClose '"' modes up (c :: cs)
  | .shell :: up => textStep .shellQuote '\x60' modes up (c :: cs)
  | .document label :: up => documentStep label modes up (c :: cs)
  | _ => codeStep modes c cs

/-! ## The whole text -/

/-- The number of bytes of a text. -/
def bytes (s : List Char) : Nat :=
  s.foldl (fun n c => n + c.utf8Size) 0

/-- The tokens that lexemes cut from a text at an offset, and what is left with its offset. -/
def cut : List Lexeme → Nat → List Char → List Token × Nat × List Char
  | [], offset, s => ([], offset, s)
  | (kind, n) :: more, offset, s =>
    let text := s.take n
    let next := offset + bytes text
    let (ts, r) := cut more next (s.drop n)
    match kind with
    | some k => (⟨k, offset, next, String.ofList text⟩ :: ts, r)
    | none => (ts, r)

/-- The tokens of a text in which at most `fuel` steps are taken. -/
def tokensFrom : Nat → List Mode → Nat → List Char → List Token
  | 0, _, _, _ => []
  | _, _, _, [] => []
  | fuel + 1, modes, offset, c :: cs =>
    let (lexemes, modes) := step modes c cs
    let (ts, offset, r) := cut lexemes offset (c :: cs)
    ts ++ tokensFrom fuel modes offset r

/-- The tokens of a source: the text before the code, the mark that opens it, and the code. -/
def tokens (source : String) : List Token :=
  let s := source.toList
  let (n, width) := outside s
  let lexeme (n : Nat) : List Lexeme := if n = 0 then [] else [(some .outside, n)]
  let (ts, offset, r) := cut (lexeme n ++ lexeme width) 0 s
  ts ++ tokensFrom r.length [] offset r

end RouteDoc.Code.Scan
