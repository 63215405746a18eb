import RouteDoc.Code.Grammar.Statement
import RouteDoc.Code.Token.Scan

/-!
# The tree of a source

The tokens of a source without trivia are read into a tree; then the trivia are woven in, each into
the innermost node that begins before it and ends behind it, and every node gets its text.

A token that begins no statement stands alone in the tree, so that every source has one. Only among
the statements of the program does a token stand alone. A mistake in a method therefore leaves of
the whole class its tokens, and what statements can be read among them, where a parser that recovers
within a declaration would keep the class and its other members.
-/

set_option autoImplicit false

namespace RouteDoc.Code

/-- The grammar with its knot tied, nested at most `fuel` deep. -/
def grammar : Nat → Grammar
  | 0, _ => failure
  | fuel + 1, goal =>
    let g := grammar fuel
    match goal with
    | .expression least => Grammar.expression g least
    | .operand => Grammar.operand g
    | .statement => Grammar.statement g

/-- The tokens that the grammar reads: without trivia, but with a gap where a stretch of code ends.
-/
def significant : List Token → List Token
  | [] => []
  | t :: ts =>
    if t.kind == .island then { t with kind := .gap, stop := t.start, text := "" } :: significant ts
    else if t.kind == .comment then significant ts
    else t :: significant ts

/-- Reads statements to the end. -/
def programItems (g : Grammar) : Reader (List Tree) :=
  Reader.many (return (← Reader.peek).isSome)
    (return [← g .statement <|> return (← Reader.next).leaf])

namespace Tree

mutual
/-- A tree with leaves woven in that lie within it. -/
def weave : Tree → List Tree → Tree
  | t, [] => t
  | .node l cs, e :: es => .node l (weaveAll cs (e :: es))
/-- Trees with leaves woven in: those between two trees there, and those within a tree into it. -/
def weaveAll : List Tree → List Tree → List Tree
  | [], es => es
  | c :: cs, es =>
    let before := es.takeWhile (·.start < c.start)
    let more := es.dropWhile (·.start < c.start)
    let within := more.takeWhile (·.start < c.stop)
    let behind := more.dropWhile (·.start < c.stop)
    before ++ weave c within :: weaveAll cs behind
end

mutual
/-- The tree with the text of every node, cut from the source. -/
def spell (source : String) : Tree → Tree
  | .node l cs =>
    .node { l with text := String.Pos.Raw.extract source ⟨l.start⟩ ⟨l.stop⟩ } (spellAll source cs)
/-- The trees with the text of every node. -/
def spellAll (source : String) : List Tree → List Tree
  | [] => []
  | t :: ts => spell source t :: spellAll source ts
end

end Tree

/-- The tree of a source. -/
def parse (source : String) : Tree :=
  let tokens := Scan.tokens source
  let read := significant tokens
  let lead := (read.takeWhile (·.kind == .outside)).map Token.leaf
  let code := read.dropWhile (·.kind == .outside)
  let items := ((programItems (grammar (2 * code.length + 2)) code).map Prod.fst).getD []
  let trivia := (tokens.filter Token.isTrivia).map Token.leaf
  let root := Tree.node ⟨.program, none, 0, source.utf8ByteSize, ""⟩ (lead ++ items)
  (root.weave trivia).spell source

end RouteDoc.Code
