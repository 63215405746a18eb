import RouteDoc.Code.Token

/-!
# Reading trees from tokens

A reader takes tokens from the front of a list and gives a tree for them, or fails. The list holds
no trivia, but a gap stands where a stretch of code ends: a gap may end a statement, and is passed
over by every other reader.

The rules of the grammar are mutually recursive through two goals, an expression and a statement. A
rule is therefore a function of a `Grammar`, which reads a goal; the knot is tied in one place.
-/

set_option autoImplicit false

namespace RouteDoc.Code

/-- The mark that opens a block. -/
def openBrace : String := "\x7b"

/-- The mark that closes a block. -/
def closeBrace : String := "\x7d"

/-- A reader of tokens. -/
abbrev Reader (α : Type) := StateT (List Token) Option α

/-- What rules read through each other. -/
inductive Goal where
  /-- An expression whose operators bind at least that tightly. -/
  | expression (least : Nat)
  /-- An operand: an expression without binary operators and assignments. -/
  | operand
  /-- A statement. -/
  | statement

/-- Reads a goal. -/
abbrev Grammar := Goal → Reader Tree

namespace Reader

/-- The tokens without the gaps in front. -/
def afterGaps (ts : List Token) : List Token :=
  ts.dropWhile (·.kind == .gap)

/-- The token that many places ahead, which stays. -/
def peekAt : Nat → Reader (Option Token)
  | 0 => fun ts => some ((afterGaps ts).head?, ts)
  | n + 1 => fun ts =>
    match peekAt n ((afterGaps ts).drop 1) with
    | some (t, _) => some (t, ts)
    | none => none

/-- The next token, which stays. -/
def peek : Reader (Option Token) := peekAt 0

/-- Takes the next token. -/
def next : Reader Token := fun ts =>
  match afterGaps ts with
  | t :: r => some (t, r)
  | [] => none

/-- Whether the next token has a property. -/
def nextIs (p : Token → Bool) : Reader Bool := do
  return (← peek).any p

/-- Whether the next token is that operator or mark. -/
def atSymbol (s : String) : Reader Bool :=
  nextIs (·.isSymbol s)

/-- Whether the next token is that keyword. -/
def atKeyword (s : String) : Reader Bool :=
  nextIs (·.isKeyword s)

/-- Whether the token that many places ahead is that operator or mark. -/
def symbolAt (n : Nat) (s : String) : Reader Bool := do
  return (← peekAt n).any (·.isSymbol s)

/-- Whether the token that many places ahead is that keyword. -/
def keywordAt (n : Nat) (s : String) : Reader Bool := do
  return (← peekAt n).any (·.isKeyword s)

/-- Whether the token that many places ahead is a word. -/
def wordAt (n : Nat) : Reader Bool := do
  return (← peekAt n).any (·.kind == .word)

/-- Whether the next token is one of those keywords. -/
def atOneOf (words : List String) : Reader Bool :=
  nextIs fun t => t.kind == .word && words.contains t.lower

/-- Takes a token with a property, as a leaf. -/
def take (p : Token → Bool) : Reader Tree := do
  let t ← next
  if p t then return t.leaf else failure

/-- Takes that operator or mark. -/
def symbol (s : String) : Reader Tree :=
  take (·.isSymbol s)

/-- Takes that keyword. -/
def keyword (s : String) : Reader Tree :=
  take (·.isKeyword s)

/-- Takes a word, as a name. -/
def name : Reader Tree := do
  let t ← next
  if t.kind == .word then return t.leafOf .name else failure

/-- Reads something if the next token begins it. -/
def when (begins : Reader Bool) (read : Reader (List Tree)) : Reader (List Tree) := do
  if ← begins then read else return []

/-- Takes that operator or mark if it is next. -/
def symbol? (s : String) : Reader (List Tree) :=
  when (atSymbol s) (return [← symbol s])

/-- Takes that keyword if it is next. -/
def keyword? (s : String) : Reader (List Tree) :=
  when (atKeyword s) (return [← keyword s])

/-- Repeats a step until it gives nothing. Every step takes a token, so there are no more of them
than tokens. -/
def iterate {α : Type} (step : α → Reader (Option α)) (a : α) : Reader α := fun ts =>
  go (ts.length + 1) a ts
where
  go : Nat → α → Reader α
    | 0, _ => failure
    | n + 1, a => do
      match ← step a with
      | some b => go n b
      | none => return a

/-- Reads items for as long as the next token begins one. -/
def many (begins : Reader Bool) (item : Reader (List Tree)) : Reader (List Tree) := do
  let items ← iterate (fun acc => do
    if ← begins then return some ((← item).reverse ++ acc) else return none) []
  return items.reverse

/-- Reads items up to that mark, which stays. -/
def manyUntil (close : String) (item : Reader (List Tree)) : Reader (List Tree) :=
  many (return !(← atSymbol close)) item

/-- Reads items with commas between them, and perhaps one behind them, up to that mark, which stays.
Places between commas may be empty. -/
def commaSeparated (close : String) (item : Reader Tree) : Reader (List Tree) :=
  manyUntil close do
    if ← atSymbol "," then return [← symbol ","]
    else
      let t ← item
      return t :: (← symbol? ",")

/-- Reads one item or more with commas between them. -/
def commaList (item : Reader Tree) : Reader (List Tree) := do
  let t ← item
  return t :: (← many (atSymbol ",") (return [← symbol ",", ← item]))

/-- Takes the end of a statement: a semicolon, or the end of the stretch of code or of the text. -/
def semicolon : Reader (List Tree) := fun ts =>
  match ts with
  | [] => some ([], [])
  | t :: r => if t.isSymbol ";" || t.kind == .gap then some ([t.leaf], r) else none

/-- Whether the statement ends here. -/
def atEnd : Reader Bool := fun ts =>
  some (ts.head?.all fun t => t.isSymbol ";" || t.kind == .gap, ts)

/-- Cuts the next token at a point that it begins with. -/
def cutPoint : Reader Unit := fun ts =>
  match ts with
  | t :: r =>
    match t.atPoint? with
    | some (point, number) => some ((), point :: number :: r)
    | none => some ((), ts)
  | [] => some ((), ts)

/-- Takes the tokens up to the end of the statement. -/
def untilEnd : Reader (List Tree) :=
  many (return !(← atEnd)) (return [(← next).leaf])

end Reader

/-- A node over its children, with the span from the first to the last of them. -/
def Tree.over (k : Kind) (cs : List Tree) : Tree :=
  let start := (cs.head?.map Tree.start).getD 0
  let stop := (cs.getLast?.map Tree.stop).getD 0
  .node ⟨k, none, start, stop, ""⟩ cs

end RouteDoc.Code
