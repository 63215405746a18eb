import RouteDoc.Code.Grammar.Name

/-!
# Arguments, arrays and attributes
-/

set_option autoImplicit false

namespace RouteDoc.Code.Grammar

open Reader

/-- A value, or the unpacking of one. -/
def unpackable (g : Grammar) : Reader Tree := do
  if ← atSymbol "..." then
    return .over .variadicUnpacking [← symbol "...", ← g (.expression 0)]
  else g (.expression 0)

/-- An argument: perhaps a name, perhaps a reference mark, and a value. -/
def argument (g : Grammar) : Reader Tree := do
  if (← atSymbol "...") && (← symbolAt 1 ")") then
    return .over .variadicPlaceholder [← symbol "..."]
  else
    let label ← when (return (← wordAt 0) && (← symbolAt 1 ":")) (return [← name, ← symbol ":"])
    let mark ← symbol? "&"
    return .over .argument (label ++ mark ++ [← unpackable g])

/-- The arguments of a call. -/
def arguments (g : Grammar) : Reader Tree := do
  let lead ← symbol "("
  let items ← commaSeparated ")" (argument g)
  return .over .arguments (lead :: items ++ [← symbol ")"])

/-- A value, or a reference to a variable. -/
def referable (g : Grammar) : Reader Tree := do
  if ← atSymbol "&" then return .over .byRef [← symbol "&", ← g (.expression 0)]
  else unpackable g

/-- An element of an array: perhaps a key, and a value. -/
def arrayElement (g : Grammar) : Reader Tree := do
  let first ← referable g
  let more ← when (atSymbol "=>") (return [← symbol "=>", ← referable g])
  return .over .arrayElementInitializer (first :: more)

/-- Elements of an array up to that mark, which is taken. -/
def arrayElements (g : Grammar) (close : String) : Reader (List Tree) := do
  let items ← commaSeparated close (arrayElement g)
  return items ++ [← symbol close]

/-- An attribute: a name, perhaps with arguments. -/
def attributeItem (g : Grammar) : Reader Tree := do
  let n ← qualified
  return .over .clause (n :: (← when (atSymbol "(") (return [← arguments g])))

/-- Lists of attributes. -/
def attributes (g : Grammar) : Reader (List Tree) :=
  many (atSymbol "#[") do
    let lead ← symbol "#["
    let items ← commaSeparated "]" (attributeItem g)
    return [.over .attributeList (lead :: items ++ [← symbol "]"])]

end RouteDoc.Code.Grammar
