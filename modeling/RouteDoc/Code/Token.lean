import RouteDoc.Code.Tree

/-!
# Tokens of PHP code

A token is a piece of the source with its place in it. A stretch between two stretches of code, and
a comment, are trivia: they may stand between any two other tokens.
-/

set_option autoImplicit false

namespace RouteDoc.Code

/-- What a token is. -/
inductive TokenKind where
  /-- Text before the code, or the mark that opens it. -/
  | outside
  /-- A stretch of text between two stretches of code, with the marks around it. -/
  | island
  /-- A comment. -/
  | comment
  /-- A name or a keyword. -/
  | word
  /-- A whole number. -/
  | integer
  /-- A number with a fraction or a power of ten. -/
  | float
  /-- A string in single quotes. -/
  | string
  /-- A here-document without interpolation. -/
  | nowdoc
  /-- An operator or a mark of punctuation. -/
  | symbol
  /-- The quote that opens an interpolated string. -/
  | quoteOpen
  /-- The quote that closes an interpolated string. -/
  | quoteClose
  /-- The opening label of a here-document. -/
  | docOpen
  /-- The closing label of a here-document. -/
  | docClose
  /-- A quote of a shell command, opening or closing. -/
  | shellQuote
  /-- A piece of an interpolated text that stands for itself. -/
  | fragment
  /-- The end of a stretch of code, which ends a statement too; it has no width. -/
  | gap
deriving DecidableEq, Repr, Inhabited

/-- A piece of the source. -/
structure Token where
  /-- What it is. -/
  kind : TokenKind
  /-- The offset of its first byte. -/
  start : Nat
  /-- The offset behind its last byte. -/
  stop : Nat
  /-- Its text. -/
  text : String
deriving DecidableEq, Repr, Inhabited

namespace Token

/-- Whether a token may stand between any two others. -/
def isTrivia (t : Token) : Bool :=
  t.kind == .comment || t.kind == .island

/-- Whether a token is that operator or mark. -/
def isSymbol (t : Token) (s : String) : Bool :=
  t.kind == .symbol && t.text == s

/-- The text of a token without regard to case. -/
def lower (t : Token) : String :=
  String.ofList (t.text.toList.map Char.toLower)

/-- Whether a token is that keyword, in any case. -/
def isKeyword (t : Token) (s : String) : Bool :=
  t.kind == .word && t.lower == s

/-- The operator and the number that a number which begins with a point is made of where an operand
has just ended. -/
def atPoint? (t : Token) : Option (Token × Token) :=
  match t.kind, t.text.toList with
  | .float, '.' :: cs =>
    let kind := if cs.all (fun c => c.isDigit || c == '_') then .integer else .float
    some (⟨.symbol, t.start, t.start + 1, "."⟩, ⟨kind, t.start + 1, t.stop, String.ofList cs⟩)
  | _, _ => none

/-- The kind of the leaf for a token. -/
def leafKind (t : Token) : Kind :=
  match t.kind with
  | .outside | .island => .markup
  | .comment => .comment
  | .integer => .integer
  | .float => .float
  | .string => .string
  | .nowdoc => .nowdoc
  | .fragment => .stringContent
  | _ => .token

/-- The leaf of a kind for a token. -/
def leafOf (k : Kind) (t : Token) : Tree :=
  .node ⟨k, none, t.start, t.stop, t.text⟩ []

/-- The leaf for a token. -/
def leaf (t : Token) : Tree :=
  t.leafOf t.leafKind

/-- Whether a character beyond U+007F separates tokens: a space without break or width. -/
def isWideSpace (c : Char) : Bool :=
  [0xA0, 0x200B, 0x2060, 0xFEFF].contains c.toNat

/-- Whether a character may begin a name. -/
def isNameStart (c : Char) : Bool :=
  c.isAlpha || c == '_' || (0x80 ≤ c.toNat && c.toNat ≤ 0xFFFF && !isWideSpace c)

/-- Whether a character may stand in a name. -/
def isNameChar (c : Char) : Bool :=
  isNameStart c || c.isDigit

/-- Whether a character separates tokens. -/
def isSpace (c : Char) : Bool :=
  c == ' ' || (0x09 ≤ c.toNat && c.toNat ≤ 0x0D) || isWideSpace c

end Token

end RouteDoc.Code
