import RouteDoc.Code.Tree
import RouteDoc.Text.Blank

/-!
# String literals

The value of a string literal. Between single quotes a backslash escapes itself and the quote;
between double quotes it escapes itself, the quote, the dollar sign, and the letters that stand for
controls. A backslash before anything else stands for itself. A text that interpolates has no value.
-/

set_option autoImplicit false

namespace RouteDoc

open Text Code

namespace Literal

/-- The text between two quotes of one kind, behind an optional mark for binary strings. -/
def unquote? (quote : Char) (s : List Char) : Option (List Char) :=
  let s := ((after? ['b'] s).or (after? ['B'] s)).getD s
  (after? [quote] s).bind (before? [quote])

/-- The value of the text between single quotes. -/
def unescapeSingle : List Char → List Char
  | '\\' :: '\\' :: cs => '\\' :: unescapeSingle cs
  | '\\' :: '\'' :: cs => '\'' :: unescapeSingle cs
  | c :: cs => c :: unescapeSingle cs
  | [] => []

/-- What a character stands for behind a backslash between double quotes. -/
def escaped? : Char → Option Char
  | 'n' => some '\n'
  | 't' => some '\t'
  | 'r' => some '\r'
  | 'v' => some '\x0b'
  | 'e' => some '\x1b'
  | 'f' => some '\x0c'
  | '\\' => some '\\'
  | '$' => some '$'
  | '"' => some '"'
  | _ => none

/-- The value of the text between double quotes. -/
def unescapeDouble : List Char → List Char
  | '\\' :: c :: cs =>
    match escaped? c with
    | some d => d :: unescapeDouble cs
    | none => '\\' :: c :: unescapeDouble cs
  | c :: cs => c :: unescapeDouble cs
  | [] => []

/-- The value of a literal in single quotes. -/
def single? (s : List Char) : Option (List Char) :=
  (unquote? '\'' s).map unescapeSingle

/-- The value of a literal in double quotes that does not interpolate. -/
def double? (s : List Char) : Option (List Char) :=
  (unquote? '"' s).map unescapeDouble

end Literal

/-- The value of a string literal, if the node is one and does not interpolate. The pieces that
interpolate nothing are all of one kind, also where they hold escapes: the value is read off the
text between the quotes, so it does not matter how that is cut into pieces. -/
def Code.Tree.stringValue? (t : Tree) : Option String :=
  match t.kind with
  | .string => (Literal.single? t.text.toList).map String.ofList
  | .encapsedString =>
    if t.parts.all (·.kind == .stringContent) then
      (Literal.double? t.text.toList).map String.ofList
    else none
  | _ => none

end RouteDoc
