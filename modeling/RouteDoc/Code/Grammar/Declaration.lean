import RouteDoc.Code.Grammar.Call

/-!
# Functions, members and classes
-/

set_option autoImplicit false

namespace RouteDoc.Code.Grammar

open Reader

/-- Statements in braces. -/
def block (g : Grammar) : Reader Tree := do
  let lead ← symbol openBrace
  let items ← manyUntil closeBrace (return [← g .statement])
  return .over .block (lead :: items ++ [← symbol closeBrace])

/-- The keywords that may stand before a member or a class. -/
def modifierWords : List String :=
  ["public", "protected", "private", "static", "abstract", "final", "readonly", "var"]

/-- Modifiers, each perhaps with the operation that it is about. -/
def modifiers : Reader (List Tree) :=
  many (atOneOf modifierWords) do
    let word ← next
    let about ← when (return (← atSymbol "(") && (← keywordAt 1 "set"))
      (return [← symbol "(", ← name, ← symbol ")"])
    return [.over .modifier (word.leaf :: about)]

/-- A default behind an equals sign, if there is one. -/
def default? (g : Grammar) : Reader (List Tree) :=
  when (atSymbol "=") (return [← symbol "=", ← g (.expression 0)])

/-- A parameter of a function. -/
def parameter (g : Grammar) : Reader Tree := do
  let lead ← attributes g
  let marks ← modifiers
  let typed ← when (return !((← atSymbol "$") || (← atSymbol "&") || (← atSymbol "...")))
    (return [← typeName])
  let reference ← symbol? "&"
  let variadic ← symbol? "..."
  let v ← variableName g
  return .over .clause (lead ++ marks ++ typed ++ reference ++ variadic ++ v :: (← default? g))

/-- The parameters of a function. -/
def parameters (g : Grammar) : Reader Tree := do
  let lead ← symbol "("
  let items ← commaSeparated ")" (parameter g)
  return .over .parameters (lead :: items ++ [← symbol ")"])

/-- The type of a function's results, if it is declared. -/
def resultType : Reader (List Tree) :=
  when (atSymbol ":") (return [← symbol ":", ← typeName])

/-- The body of a function, or the end of its declaration. -/
def bodyOrEnd (g : Grammar) : Reader (List Tree) := do
  if ← atSymbol openBrace then return [(← block g).withRole .body] else semicolon

/-- A method behind its modifiers. -/
def method (g : Grammar) (before : List Tree) : Reader Tree := do
  let word ← keyword "function"
  let reference ← symbol? "&"
  let n := (← name).withRole .name
  let ps ← parameters g
  let result ← resultType
  let body ← bodyOrEnd g
  return .over .methodDeclaration (before ++ word :: reference ++ n :: ps :: result ++ body)

/-- A constant with its value. -/
def constant (g : Grammar) : Reader Tree := do
  return .over .clause [← name, ← symbol "=", ← g (.expression 0)]

/-- The constants of a class behind their modifiers. -/
def constants (g : Grammar) (before : List Tree) : Reader Tree := do
  let word ← keyword "const"
  let typed ← when (return !(← symbolAt 1 "=")) (return [← typeName])
  let items ← commaList (constant g)
  return .over .declaration (before ++ word :: typed ++ items ++ (← semicolon))

/-- A case of an enumeration behind its attributes. -/
def enumCase (g : Grammar) (before : List Tree) : Reader Tree := do
  let word ← keyword "case"
  let n ← name
  let value ← default? g
  return .over .declaration (before ++ word :: n :: value ++ (← semicolon))

/-- A variable of a property declaration with its default. -/
def propertyElement (g : Grammar) : Reader Tree := do
  let v := (← variableName g).withRole .name
  let value ← when (atSymbol "=") (return [← symbol "=", (← g (.expression 0)).withRole .default])
  return .over .propertyElement (v :: value)

/-- What is done when a property is read or written. -/
def propertyHook (g : Grammar) : Reader Tree := do
  let lead ← attributes g
  let marks ← modifiers
  let reference ← symbol? "&"
  let n ← name
  let ps ← when (atSymbol "(") (return [← parameters g])
  let body ←
    if ← atSymbol "=>" then
      pure ([← symbol "=>", ← g (.expression 0)] ++ (← semicolon))
    else bodyOrEnd g
  return .over .clause (lead ++ marks ++ reference ++ n :: ps ++ body)

/-- The hooks of a property, or the end of its declaration. -/
def propertyEnd (g : Grammar) : Reader (List Tree) := do
  if ← atSymbol openBrace then
    let lead ← symbol openBrace
    let hooks ← manyUntil closeBrace (return [← propertyHook g])
    return [.over .clause (lead :: hooks ++ [← symbol closeBrace])]
  else semicolon

/-- The properties of a class behind their modifiers. -/
def properties (g : Grammar) (before : List Tree) : Reader Tree := do
  let typed ← when (return !(← atSymbol "$")) (return [← typeName])
  let items ← commaList (propertyElement g)
  return .over .propertyDeclaration (before ++ typed ++ items ++ (← propertyEnd g))

/-- The traits that a class uses. -/
def traitUse : Reader Tree := do
  let word ← keyword "use"
  let names ← many (return !((← atEnd) || (← atSymbol openBrace))) (return [(← next).leaf])
  if ← atSymbol openBrace then
    let lead ← symbol openBrace
    let rules ← manyUntil closeBrace (return [(← next).leaf])
    return .over .declaration (word :: names ++ lead :: rules ++ [← symbol closeBrace])
  else return .over .declaration (word :: names ++ (← semicolon))

/-- A member of a class. -/
def member (g : Grammar) : Reader Tree := do
  if ← atKeyword "use" then traitUse
  else
    let lead ← attributes g
    let marks ← modifiers
    let before := lead ++ marks
    if ← atKeyword "function" then method g before
    else if ← atKeyword "const" then constants g before
    else if ← atKeyword "case" then enumCase g before
    else properties g before

/-- The members of a class. -/
def memberList (g : Grammar) : Reader Tree := do
  let lead ← symbol openBrace
  let items ← manyUntil closeBrace (return [← member g])
  return .over .memberList (lead :: items ++ [← symbol closeBrace])

/-- The classes that a class extends and the interfaces that it implements. -/
def ancestors : Reader (List Tree) :=
  many (atOneOf ["extends", "implements"]) do
    let word ← next
    return [.over .clause (word.leaf :: (← commaList qualified))]

/-- A class, an interface, a trait or an enumeration behind its attributes and modifiers. -/
def classLike (g : Grammar) (before : List Tree) : Reader Tree := do
  let word ← next
  let n := (← name).withRole .name
  let typed ← resultType
  let above ← ancestors
  let body := (← memberList g).withRole .body
  let k : Kind := if word.lower == "class" then .classDeclaration else .typeDeclaration
  return .over k (before ++ word.leaf :: n :: typed ++ above ++ [body])

/-- The rest of an anonymous class behind the word for creation. -/
def anonymousClass (g : Grammar) : Reader (List Tree) := do
  let lead ← attributes g
  let marks ← modifiers
  let word ← keyword "class"
  let args ← when (atSymbol "(") (return [(← arguments g).withRole .arguments])
  let above ← ancestors
  return lead ++ marks ++ word :: args ++ above ++ [← memberList g]

/-- The variables that a closure takes along. -/
def closureUse (g : Grammar) : Reader (List Tree) :=
  when (atKeyword "use") do
    let word ← keyword "use"
    let lead ← symbol "("
    let items ← commaSeparated ")" do
      return .over .clause ((← symbol? "&") ++ [← variableName g])
    return word :: lead :: items ++ [← symbol ")"]

/-- A closure behind its attributes. -/
def closure (g : Grammar) (before : List Tree) : Reader Tree := do
  let leading ← keyword? "static"
  if ← atKeyword "fn" then
    let word ← keyword "fn"
    let reference ← symbol? "&"
    let ps ← parameters g
    let result ← resultType
    let arrow ← symbol "=>"
    let body := (← g (.expression 0)).withRole .body
    return .over .arrowFunction
      (before ++ leading ++ word :: reference ++ ps :: result ++ [arrow, body])
  else
    let word ← keyword "function"
    let reference ← symbol? "&"
    let ps ← parameters g
    let uses ← closureUse g
    let result ← resultType
    let body := (← block g).withRole .body
    return .over .anonymousFunction
      (before ++ leading ++ word :: reference ++ ps :: uses ++ result ++ [body])

/-- A function behind its attributes. -/
def namedFunction (g : Grammar) (before : List Tree) : Reader Tree := do
  let word ← keyword "function"
  let reference ← symbol? "&"
  let n := (← name).withRole .name
  let ps ← parameters g
  let result ← resultType
  let body := (← block g).withRole .body
  return .over .declaration (before ++ word :: reference ++ n :: ps :: result ++ [body])

end RouteDoc.Code.Grammar
