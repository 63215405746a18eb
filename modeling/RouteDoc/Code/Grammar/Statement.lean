import RouteDoc.Code.Grammar.Expression

/-!
# Statements
-/

set_option autoImplicit false

namespace RouteDoc.Code.Grammar

open Reader

/-- Statements up to one of those keywords, which stays. -/
def statementsUntil (g : Grammar) (words : List String) : Reader (List Tree) :=
  many (return !(← atOneOf words)) (return [← g .statement])

/-- The body of a statement: one statement, or statements between a colon and a closing word. -/
def bodyOrColon (g : Grammar) (close : String) : Reader (List Tree) := do
  if ← atSymbol ":" then
    let colon ← symbol ":"
    let items ← statementsUntil g [close]
    let word ← keyword close
    return .over .clause (colon :: items) :: word :: (← semicolon)
  else return [← g .statement]

/-- The condition of a branch and what is done when it holds. -/
def colonBranch (g : Grammar) : Reader (List Tree) := do
  let condition ← when (atSymbol "(") (return [← parenthesized g])
  let colon ← symbol ":"
  let items ← statementsUntil g ["elseif", "else", "endif"]
  return condition ++ [.over .clause (colon :: items)]

/-- A conditional statement. -/
def ifStatement (g : Grammar) : Reader Tree := do
  let word ← keyword "if"
  let condition ← parenthesized g
  if ← atSymbol ":" then
    let first ← colonBranch g
    let more ← many (atOneOf ["elseif", "else"]) do
      let w ← next
      return [.over .clause (w.leaf :: (← colonBranch g))]
    let close ← keyword "endif"
    return .over .statement (word :: condition :: first ++ more ++ close :: (← semicolon))
  else
    let first ← g .statement
    let more ← many (atKeyword "elseif") do
      return [.over .clause [← keyword "elseif", ← parenthesized g, ← g .statement]]
    let last ← when (return (← atKeyword "else") && !(← symbolAt 1 ":")) do
      return [.over .clause [← keyword "else", ← g .statement]]
    return .over .statement (word :: condition :: first :: more ++ last)

/-- A loop with its condition in front. -/
def whileStatement (g : Grammar) : Reader Tree := do
  let word ← keyword "while"
  let condition ← parenthesized g
  return .over .statement (word :: condition :: (← bodyOrColon g "endwhile"))

/-- A loop with its condition behind. -/
def doStatement (g : Grammar) : Reader Tree := do
  let word ← keyword "do"
  let body ← g .statement
  let behind ← keyword "while"
  let condition ← parenthesized g
  return .over .statement (word :: body :: behind :: condition :: (← semicolon))

/-- Expressions with commas between them up to that mark, which is taken. -/
def expressionsUntil (g : Grammar) (close : String) : Reader (List Tree) := do
  let items ← commaSeparated close (g (.expression 0))
  return items ++ [← symbol close]

/-- A counting loop. -/
def forStatement (g : Grammar) : Reader Tree := do
  let word ← keyword "for"
  let lead ← symbol "("
  let first ← expressionsUntil g ";"
  let condition ← expressionsUntil g ";"
  let step ← expressionsUntil g ")"
  let body ← bodyOrColon g "endfor"
  return .over .statement (word :: lead :: first ++ condition ++ step ++ body)

/-- A loop over elements. -/
def foreachStatement (g : Grammar) : Reader Tree := do
  let word ← keyword "foreach"
  let lead ← symbol "("
  let subject ← g (.expression 0)
  let middle ← keyword "as"
  let element ← arrayElement g
  let close ← symbol ")"
  let body ← bodyOrColon g "endforeach"
  return .over .statement (word :: lead :: subject :: middle :: element :: close :: body)

/-- The mark behind a case. -/
def caseMark : Reader (List Tree) := do
  if ← atSymbol ":" then return [← symbol ":"] else semicolon

/-- A case of a choice between statements. -/
def caseClause (g : Grammar) : Reader Tree := do
  let word ← next
  let value ← when (return word.lower == "case") (return [← g (.expression 0)])
  let mark ← caseMark
  let items ← many
    (return !((← atOneOf ["case", "default", "endswitch"]) || (← atSymbol closeBrace)))
    (return [← g .statement])
  return .over .clause (word.leaf :: value ++ mark ++ items)

/-- A choice between statements. -/
def switchStatement (g : Grammar) : Reader Tree := do
  let word ← keyword "switch"
  let subject ← parenthesized g
  if ← atSymbol ":" then
    let colon ← symbol ":"
    let cases ← many (return !(← atKeyword "endswitch")) (return [← caseClause g])
    let close ← keyword "endswitch"
    let body := Tree.over .clause (colon :: cases ++ close :: (← semicolon))
    return .over .statement [word, subject, body]
  else
    let lead ← symbol openBrace
    let cases ← manyUntil closeBrace (return [← caseClause g])
    let body := Tree.over .clause (lead :: cases ++ [← symbol closeBrace])
    return .over .statement [word, subject, body]

/-- The types of exceptions that a handler takes. -/
def caught : Reader (List Tree) := do
  let first ← qualified
  return first :: (← many (atSymbol "|") (return [← symbol "|", ← qualified]))

/-- A statement with handlers for exceptions. -/
def tryStatement (g : Grammar) : Reader Tree := do
  let word ← keyword "try"
  let body ← block g
  let handlers ← many (atKeyword "catch") do
    let w ← keyword "catch"
    let lead ← symbol "("
    let types ← caught
    let v ← when (atSymbol "$") (return [← variableName g])
    let close ← symbol ")"
    return [.over .clause (w :: lead :: types ++ v ++ [close, ← block g])]
  let last ← when (atKeyword "finally") do
    return [.over .clause [← keyword "finally", ← block g]]
  return .over .statement (word :: body :: handlers ++ last)

/-- A keyword and an optional value, up to the end of the statement. -/
def wordStatement (g : Grammar) (k : Kind) : Reader Tree := do
  let word ← next
  let value ← when (return !(← atEnd)) (return [← g (.expression 0)])
  return .over k (word.leaf :: value ++ (← semicolon))

/-- A keyword and values with commas between them. -/
def echoStatement (g : Grammar) : Reader Tree := do
  let word ← next
  let values ← commaList (g (.expression 0))
  return .over .statement (word.leaf :: values ++ (← semicolon))

/-- Variables that keep their values between calls. -/
def staticStatement (g : Grammar) : Reader Tree := do
  let word ← keyword "static"
  let items ← commaList do
    return .over .clause ((← variableName g) :: (← default? g))
  return .over .statement (word :: items ++ (← semicolon))

/-- A statement that holds no expression: its tokens. -/
def plainStatement : Reader Tree := do
  let ts ← untilEnd
  return .over .statement (ts ++ (← semicolon))

/-- A namespace, perhaps with a body. -/
def namespaceDefinition (g : Grammar) : Reader Tree := do
  let word ← keyword "namespace"
  let n ← when (return !((← atEnd) || (← atSymbol openBrace)))
    (return [(← namespaceName).withRole .name])
  return .over .namespaceDefinition (word :: n ++ (← bodyOrEnd g))

/-- A directive, perhaps with a body. -/
def declareStatement (g : Grammar) : Reader Tree := do
  let word ← keyword "declare"
  let lead ← symbol "("
  let items ← commaSeparated ")" (constant g)
  let close ← symbol ")"
  let body ←
    if ← atEnd then semicolon
    else bodyOrColon g "enddeclare"
  return .over .statement (word :: lead :: items ++ close :: body)

/-- Expressions up to the end of a statement. -/
def expressionStatement (g : Grammar) : Reader Tree := do
  let values ← commaList (g (.expression 0))
  return .over .statement (values ++ (← semicolon))

/-- Whether the token that many places ahead is a word for a kind of class, before a name. -/
def classWordAt (n : Nat) : Reader Bool := do
  let isClassWord := (← peekAt n).any fun t =>
    t.kind == .word && ["class", "interface", "trait", "enum"].contains t.lower
  return isClassWord && (← wordAt (n + 1))

/-- Whether a class or the like begins here, perhaps with modifiers. -/
def atClass : Reader Bool := do
  if ← classWordAt 0 then
    -- An enumeration may lack nothing of a class, but its word may also be a name.
    return !((← atKeyword "enum") && ((← keywordAt 1 "instanceof") || (← keywordAt 1 "and") ||
      (← keywordAt 1 "or") || (← keywordAt 1 "xor")))
  else
    let isModifier (t : Option Token) : Bool :=
      t.any fun t => t.kind == .word && ["abstract", "final", "readonly"].contains t.lower
    return isModifier (← peek) && ((← keywordAt 1 "class") || isModifier (← peekAt 1))

/-- Whether a named function begins here. -/
def atFunction : Reader Bool := do
  return (← atKeyword "function") && ((← wordAt 1) || ((← symbolAt 1 "&") && (← wordAt 2)))

/-- A class or a named function, perhaps with attributes. -/
def declared (g : Grammar) : Reader Tree := do
  let lead ← attributes g
  if ← atFunction then namedFunction g lead
  else if ← atClass then
    let marks ← modifiers
    classLike g (lead ++ marks)
  else failure

/-- A statement that begins with a word. -/
def wordOpening (g : Grammar) (t : Token) : Reader Tree := do
  if (← atFunction) || (← atClass) then declared g
  else if ← symbolAt 1 "::" then expressionStatement g
  else if ← symbolAt 1 ":" then return .over .statement [← name, ← symbol ":"]
  else
    match t.lower with
    | "if" => ifStatement g
    | "while" => whileStatement g
    | "do" => doStatement g
    | "for" => forStatement g
    | "foreach" => foreachStatement g
    | "switch" => switchStatement g
    | "try" => tryStatement g
    | "return" => wordStatement g .returnStatement
    | "break" | "continue" => wordStatement g .statement
    | "echo" => echoStatement g
    | "static" => if ← symbolAt 1 "$" then staticStatement g else expressionStatement g
    | "const" => constants g []
    | "global" | "goto" | "use" => plainStatement
    | "namespace" =>
      if ← symbolAt 1 "\\" then expressionStatement g else namespaceDefinition g
    | "declare" => declareStatement g
    | _ => expressionStatement g

/-- A statement. -/
def statement (g : Grammar) : Reader Tree := do
  match ← peek with
  | none => failure
  | some t =>
    if t.kind == .word then wordOpening g t
    else if t.isSymbol openBrace then block g
    else if t.isSymbol ";" then return .over .statement [← symbol ";"]
    else if t.isSymbol "#[" then declared g <|> expressionStatement g
    else expressionStatement g

end RouteDoc.Code.Grammar
