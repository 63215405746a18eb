import RouteDoc.Code.Grammar.Declaration

/-!
# Expressions

An expression is an operand followed by operators with their right operands, each of which binds at
least as tightly as is asked for. An operand is a chain of accesses and calls on a first part, or a
word or mark in front of another operand. Behind a variable an assignment is read wherever it
stands, since nothing else could follow.
-/

set_option autoImplicit false

namespace RouteDoc.Code.Grammar

open Reader

/-! ## Binding -/

/-- How tightly assignments bind. -/
def assignmentLevel : Nat := 4

/-- How tightly the choice between two values binds. -/
def choiceLevel : Nat := 5

/-- How tightly signs and negation bind. -/
def signLevel : Nat := 19

/-- How tightly the suppression of errors binds. -/
def suppressionLevel : Nat := 21

/-- A binary operator: how tightly it binds, and how tightly its right operand has to. -/
structure Binding where
  /-- How tightly it binds. -/
  level : Nat
  /-- How tightly its right operand binds at least. -/
  right : Nat
deriving DecidableEq, Repr

/-- A binary operator of which several in a row are grouped from the left. -/
def Binding.left (level : Nat) : Binding := ⟨level, level + 1⟩

/-- A binary operator of which several in a row are grouped from the right. -/
def Binding.fromRight (level : Nat) : Binding := ⟨level, level⟩

/-- The operators that are marks. -/
def symbolBindings : List (String × Binding) := [
  ("??", .fromRight 6), ("||", .left 7), ("&&", .left 8), ("|", .left 9), ("^", .left 10),
  ("&", .left 11), ("==", .left 12), ("!=", .left 12), ("<>", .left 12), ("===", .left 12), ("!==", .left 12),
  ("<=>", .left 12), ("<", .left 13), ("<=", .left 13), (">", .left 13), (">=", .left 13),
  (".", .left 14), ("<<", .left 15), (">>", .left 15), ("+", .left 16), ("-", .left 16),
  ("*", .left 17), ("/", .left 17), ("%", .left 17), ("**", .fromRight 18)]

/-- The operators that are words. -/
def wordBindings : List (String × Binding) := [
  ("or", .left 1), ("xor", .left 2), ("and", .left 3), ("instanceof", .left 20)]

/-- The binary operator that a token is. -/
def binding? (t : Token) : Option Binding :=
  match t.kind with
  | .symbol => symbolBindings.lookup t.text
  | .word => wordBindings.lookup t.lower
  | _ => none

/-- The operators that assign the result of another operator. -/
def augmentedSymbols : List String :=
  ["+=", "-=", "*=", "/=", ".=", "%=", "&=", "|=", "^=", "<<=", ">>=", "**=", "??="]

/-- Whether a token is an operator that assigns. -/
def isAssignment (t : Token) : Bool :=
  t.kind == .symbol && (t.text == "=" || augmentedSymbols.contains t.text)

/-- Whether a value can be assigned to an expression of that kind. -/
def isAssignable : Kind → Bool
  | .variableName | .dynamicVariableName | .memberAccessExpression | .nullsafeMemberAccessExpression
  | .scopedPropertyAccessExpression | .subscriptExpression | .arrayCreationExpression | .listLiteral
  | .castExpression => true
  | _ => false

/-! ## First parts -/

/-- An expression in parentheses. -/
def parenthesized (g : Grammar) : Reader Tree := do
  return .over .parenthesizedExpression [← symbol "(", ← g (.expression 0), ← symbol ")"]

/-- An array in brackets. -/
def bracketArray (g : Grammar) : Reader Tree := do
  let lead ← symbol "["
  return .over .arrayCreationExpression (lead :: (← arrayElements g "]"))

/-- An array or a list behind a word. -/
def wordArray (g : Grammar) (k : Kind) : Reader Tree := do
  let word ← next
  let lead ← symbol "("
  return .over k (word.leaf :: lead :: (← arrayElements g ")"))

/-- A condition of a choice by value, or the word for all others. -/
def matchCondition (g : Grammar) : Reader Tree := do
  if (← atKeyword "default") && ((← symbolAt 1 "=>") || (← symbolAt 1 ",")) then keyword "default"
  else g (.expression 0)

/-- A branch of a choice by value. -/
def matchBranch (g : Grammar) : Reader Tree := do
  let conditions ← commaSeparated "=>" (matchCondition g)
  return .over .clause (conditions ++ [← symbol "=>", ← g (.expression 0)])

/-- A choice by value. -/
def matchExpression (g : Grammar) : Reader Tree := do
  let word ← keyword "match"
  let subject ← parenthesized g
  let lead ← symbol openBrace
  let branches ← commaSeparated closeBrace (matchBranch g)
  let body := Tree.over .clause (lead :: branches ++ [← symbol closeBrace])
  return .over .matchExpression [word, subject, body]

/-- The steps from a variable to the class of a new object. -/
def classPath (g : Grammar) (t : Tree) : Reader (Option Tree) := do
  if (← atSymbol "->") || (← atSymbol "?->") then
    let arrow ← next
    let m ← if ← atSymbol "$" then variableName g else name
    let k : Kind :=
      if arrow.text == "->" then .memberAccessExpression else .nullsafeMemberAccessExpression
    return some (.over k [t.withRole .object, arrow.leaf, m.withRole .name])
  else if ← atSymbol "::" then
    let marks ← symbol "::"
    let v ← variableName g
    return some (.over .scopedPropertyAccessExpression [t.withRole .scope, marks, v.withRole .name])
  else if ← atSymbol "[" then
    return some (.over .subscriptExpression
      [t, ← symbol "[", ← g (.expression 0), ← symbol "]"])
  else return none

/-- The class of a new object. -/
def classReference (g : Grammar) : Reader Tree := do
  if ← atSymbol "(" then parenthesized g
  else if ← atSymbol "$" then iterate (classPath g) (← variableName g)
  else
    let n ← qualified
    if ← atSymbol "::" then iterate (classPath g) n else return n

/-- The creation of an object. -/
def creation (g : Grammar) : Reader Tree := do
  let word ← keyword "new"
  if (← atSymbol "#[") || (← atKeyword "class") ||
      ((← atKeyword "readonly") && (← keywordAt 1 "class")) then
    return .over .objectCreationExpression (word :: (← anonymousClass g))
  else
    let c ← classReference g
    let args ← when (atSymbol "(") (return [(← arguments g).withRole .arguments])
    return .over .objectCreationExpression (word :: c :: args)

/-- The kind of a word that is a literal. -/
def literalKind? (word : String) : Option Kind :=
  if word == "true" || word == "false" then some .boolean
  else if word == "null" then some .null
  else none

/-- A first part that begins with a word. -/
def wordPart (g : Grammar) (t : Token) : Reader Tree := do
  let w := t.lower
  let opens ← symbolAt 1 "("
  let colons ← symbolAt 1 "::"
  if w == "function" || (w == "fn" && (opens || (← symbolAt 1 "&"))) then closure g []
  else if w == "static" && ((← keywordAt 1 "function") || (← keywordAt 1 "fn")) then closure g []
  else if w == "new" then creation g
  else if w == "match" && opens then matchExpression g
  else if w == "array" && opens then wordArray g .arrayCreationExpression
  else if w == "list" && opens then wordArray g .listLiteral
  else if colons && (w == "static" || t.text == "self" || t.text == "parent") then
    return (← next).leafOf .relativeScope
  else
    match literalKind? w with
    | some k =>
      if opens || colons || (← symbolAt 1 "\\") then qualified else return (← next).leafOf k
    | none => qualified

/-- The first part of a chain. -/
def firstPart (g : Grammar) : Reader Tree := do
  match ← peek with
  | none => failure
  | some t =>
    match t.kind with
    | .integer | .float | .string | .nowdoc => return (← next).leaf
    | .quoteOpen => interpolated g .encapsedString .quoteClose
    | .docOpen => interpolated g .heredoc .docClose
    | .shellQuote => interpolated g .shellCommandExpression .shellQuote
    | .word => wordPart g t
    | .symbol =>
      if t.text == "(" then parenthesized g
      else if t.text == "[" then bracketArray g
      else if t.text == "$" then variableName g
      else if t.text == "\\" then qualified
      else if t.text == "#[" then do closure g (← attributes g)
      else failure
    | _ => failure

/-! ## Chains -/

/-- The name of a member: a word, a variable, or an expression in braces. -/
def memberName (g : Grammar) : Reader (List Tree) := do
  if ← atSymbol "$" then return [(← variableName g).withRole .name]
  else if ← atSymbol openBrace then
    return [← symbol openBrace, (← g (.expression 0)).withRole .name, ← symbol closeBrace]
  else return [(← name).withRole .name]

/-- An access to a member of a value, or a call of it. -/
def memberLink (g : Grammar) (access call : Kind) (t : Tree) : Reader Tree := do
  let arrow ← next
  let m ← memberName g
  let front := t.withRole .object :: arrow.leaf :: m
  if ← atSymbol "(" then return .over call (front ++ [(← arguments g).withRole .arguments])
  else return .over access front

/-- An access to a member of a class, or a call of it. -/
def scopedLink (g : Grammar) (t : Tree) : Reader Tree := do
  let marks ← symbol "::"
  let access : Kind :=
    if ← atSymbol "$" then .scopedPropertyAccessExpression else .classConstantAccessExpression
  let front := t.withRole .scope :: marks :: (← memberName g)
  if ← atSymbol "(" then
    return .over .scopedCallExpression (front ++ [(← arguments g).withRole .arguments])
  else return .over access front

/-- An access to an element. -/
def subscriptLink (g : Grammar) (t : Tree) : Reader Tree := do
  let lead ← symbol "["
  let offset ← when (return !(← atSymbol "]")) (return [← g (.expression 0)])
  return .over .subscriptExpression (t :: lead :: offset ++ [← symbol "]"])

/-- One more link of a chain, if there is one. -/
def link (g : Grammar) (t : Tree) : Reader (Option Tree) := do
  if ← atSymbol "->" then
    return some (← memberLink g .memberAccessExpression .memberCallExpression t)
  else if ← atSymbol "?->" then
    return some (← memberLink g .nullsafeMemberAccessExpression .nullsafeMemberCallExpression t)
  else if ← atSymbol "::" then return some (← scopedLink g t)
  else if ← atSymbol "[" then return some (← subscriptLink g t)
  else if ← atSymbol "(" then
    return some (.over .functionCallExpression [t, (← arguments g).withRole .arguments])
  else if (← atSymbol "++") || (← atSymbol "--") then
    return some (.over .updateExpression [t, (← next).leaf])
  else return none

/-- A chain of accesses and calls. -/
def chain (g : Grammar) : Reader Tree := do
  iterate (link g) (← firstPart g)

/-! ## Operands -/

/-- The types that a value can be cast to. -/
def castWords : List String :=
  ["array", "binary", "bool", "boolean", "double", "int", "integer", "float", "object", "string",
    "unset"]

/-- Whether a cast begins here. -/
def atCast : Reader Bool := do
  if (← atSymbol "(") && (← symbolAt 2 ")") then
    return (← peekAt 1).any fun t => t.kind == .word && castWords.contains t.lower
  else return false

/-- A cast. -/
def cast (g : Grammar) : Reader Tree := do
  return .over .castExpression [← symbol "(", ← name, ← symbol ")", ← g .operand]

/-- The words in front of an expression that reaches as far as possible. -/
def leadingWords : List (String × Kind) := [
  ("print", .printIntrinsic), ("throw", .throwExpression), ("include", .includeExpression),
  ("include_once", .includeOnceExpression), ("require", .requireExpression),
  ("require_once", .requireOnceExpression)]

/-- Whether no expression follows. -/
def atStop : Reader Bool := do
  if ← atEnd then return true
  else return (← atSymbol ")") || (← atSymbol "]") || (← atSymbol ",") || (← atSymbol closeBrace)

/-- What a generator yields: nothing, a value, a key and a value, or the values of another one. -/
def yielded (g : Grammar) : Reader Tree := do
  let word ← keyword "yield"
  if ← atStop then return .over .yieldExpression [word]
  else if ← atKeyword "from" then
    return .over .yieldExpression [word, ← keyword "from", ← g (.expression 0)]
  else
    let v ← g (.expression 0)
    let more ← when (atSymbol "=>") (return [← symbol "=>", ← g (.expression 0)])
    return .over .yieldExpression (word :: v :: more)

/-- A mark in front of an operand. -/
def marked (g : Grammar) (k : Kind) (least : Nat) : Reader Tree := do
  return .over k [(← next).leaf, ← g (.expression least)]

/-- An operand that begins with a word. -/
def wordOperand (g : Grammar) (t : Token) : Reader Tree := do
  match leadingWords.lookup t.lower with
  | some k => marked g k 0
  | none =>
    if t.lower == "clone" && !(← symbolAt 1 "::") then
      return .over .cloneExpression [← keyword "clone", ← chain g]
    else if t.lower == "yield" then yielded g
    else chain g

/-- An operand. -/
def operand (g : Grammar) : Reader Tree := do
  match ← peek with
  | none => failure
  | some t =>
    if t.kind == .word then wordOperand g t
    else if t.kind == .symbol then
      if ["!", "-", "+", "~"].contains t.text then marked g .unaryOpExpression signLevel
      else if t.text == "@" then marked g .errorSuppressionExpression suppressionLevel
      else if t.text == "++" || t.text == "--" then
        return .over .updateExpression [(← next).leaf, ← chain g]
      else if ← atCast then cast g
      else chain g
    else chain g

/-! ## Operators -/

/-- An assignment to what was read. -/
def assignment (g : Grammar) (t : Tree) : Reader Tree := do
  let mark ← next
  if mark.text == "=" && (← atSymbol "&") then
    return .over .referenceAssignmentExpression
      [t, mark.leaf, ← symbol "&", ← g (.expression assignmentLevel)]
  else
    let k : Kind :=
      if mark.text == "=" then .assignmentExpression else .augmentedAssignmentExpression
    return .over k [t, mark.leaf, ← g (.expression assignmentLevel)]

/-- A choice between two values, of which the first may be left out. -/
def choice (g : Grammar) (t : Tree) : Reader Tree := do
  let mark ← symbol "?"
  let first ← when (return !(← atSymbol ":")) (return [← g (.expression 0)])
  let colon ← symbol ":"
  let second ← g (.expression (choiceLevel + 1))
  return .over .conditionalExpression (t :: mark :: first ++ [colon, second])

/-- One more operator with its right operand, if there is one that binds tightly enough. -/
def operator (g : Grammar) (least : Nat) (t : Tree) : Reader (Option Tree) := do
  cutPoint
  match ← peek with
  | none => return none
  | some o =>
    if isAssignable t.kind && isAssignment o then return some (← assignment g t)
    else if o.isSymbol "?" && least ≤ choiceLevel then return some (← choice g t)
    else
      match binding? o with
      | some b =>
        if least ≤ b.level then
          return some (.over .binaryExpression [t, (← next).leaf, ← g (.expression b.right)])
        else return none
      | none => return none

/-- An expression whose operators bind at least that tightly. -/
def expression (g : Grammar) (least : Nat) : Reader Tree := do
  iterate (operator g least) (← operand g)

end RouteDoc.Code.Grammar
