import RouteDoc.Code.Grammar.Basic

/-!
# Names, variables, types and interpolated texts
-/

set_option autoImplicit false

namespace RouteDoc.Code.Grammar

open Reader

/-- A name, perhaps with a namespace before it. -/
def qualified : Reader Tree := do
  let lead ← symbol? "\\"
  let first ← name
  let more ← many (return (← atSymbol "\\") && (← wordAt 1)) (return [← symbol "\\", ← name])
  if lead.isEmpty && more.isEmpty then return first
  else return .over .qualifiedName (lead ++ first :: more)

/-- The name of a namespace. -/
def namespaceName : Reader Tree := do
  let first ← name
  let more ← many (atSymbol "\\") (return [← symbol "\\", ← name])
  return .over .namespaceName (first :: more)

/-- A part of a type: a name, or names in parentheses that all have to hold. -/
def typePart : Reader (List Tree) := do
  if ← atSymbol "(" then
    let lead ← symbol "("
    let first ← qualified
    let more ← many (atSymbol "&") (return [← symbol "&", ← qualified])
    return lead :: first :: more ++ [← symbol ")"]
  else return [← qualified]

/-- Whether the next token joins two parts of a type. -/
def atTypeJoint : Reader Bool := do
  if ← atSymbol "|" then return true
  else if ← atSymbol "&" then
    return !((← symbolAt 1 "$") || (← symbolAt 1 "&") || (← symbolAt 1 "..."))
  else return false

/-- A type. -/
def typeName : Reader Tree := do
  let lead ← symbol? "?"
  let first ← typePart
  let more ← many atTypeJoint do
    let joint ← next
    return joint.leaf :: (← typePart)
  return .over .typeName (lead ++ first ++ more)

/-- A variable by its name, by the value of another variable, or by an expression in braces. -/
def variableName (g : Grammar) : Reader Tree := do
  let dollars ← many (atSymbol "$") (return [← symbol "$"])
  match dollars.reverse with
  | [] => failure
  | last :: before => do
    let inner ←
      if ← atSymbol openBrace then
        let body := [← symbol openBrace, ← g (.expression 0), ← symbol closeBrace]
        pure (Tree.over .dynamicVariableName (last :: body))
      else pure (Tree.over .variableName [last, ← name])
    return before.foldl (fun t d => .over .dynamicVariableName [d, t]) inner

/-! ## Interpolated texts -/

/-- The offset in brackets behind a variable in a text. -/
def plainOffset (g : Grammar) : Reader (List Tree) := do
  let lead ← symbol "["
  let sign ← symbol? "-"
  let offset ←
    if ← atSymbol "$" then variableName g
    else do
      let t ← next
      match t.kind with
      | .word => pure (t.leafOf .name)
      | .integer => pure t.leaf
      | _ => failure
  return lead :: sign ++ [offset, ← symbol "]"]

/-- A variable in a text, perhaps with an offset or a member. -/
def plainInterpolation (g : Grammar) : Reader Tree := do
  let v ← variableName g
  if ← atSymbol "[" then return .over .subscriptExpression (v :: (← plainOffset g))
  else if ← atSymbol "->" then
    return .over .memberAccessExpression
      [v.withRole .object, ← symbol "->", (← name).withRole .name]
  else if ← atSymbol "?->" then
    return .over .nullsafeMemberAccessExpression
      [v.withRole .object, ← symbol "?->", (← name).withRole .name]
  else return v

/-- A piece of an interpolated text. -/
def piece (g : Grammar) : Reader (List Tree) := do
  if ← nextIs (·.kind == .fragment) then return [(← next).leaf]
  else if ← atSymbol openBrace then
    return [← symbol openBrace, ← g (.expression 0), ← symbol closeBrace]
  else return [← plainInterpolation g]

/-- An interpolated text up to a token of kind `close`. -/
def interpolated (g : Grammar) (k : Kind) (close : TokenKind) : Reader Tree := do
  let first ← next
  let pieces ← many (return !(← nextIs (·.kind == close))) (piece g)
  return .over k (first.leaf :: pieces ++ [(← next).leaf])

end RouteDoc.Code.Grammar
