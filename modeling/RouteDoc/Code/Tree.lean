import RouteDoc.Code.Kind

/-!
# Trees of code

A node has a kind, perhaps a role in its parent, the bytes that it spans and their text; below it
are its children in the order of the text. Tokens are leaves of their own, so that the children of a
node cover all of it but blanks.

`Tree.preorder` lists the nodes of a tree, each before those below it.
-/

set_option autoImplicit false

namespace RouteDoc.Code

/-- What is known of a node apart from its children. -/
structure Label where
  /-- What the node is. -/
  kind : Kind
  /-- What it is to its parent. -/
  role : Option Role := none
  /-- The offset of its first byte. -/
  start : Nat
  /-- The offset behind its last byte. -/
  stop : Nat
  /-- Its text. -/
  text : String
deriving DecidableEq, Repr, Inhabited

/-- A tree of code. -/
inductive Tree where
  /-- A node over its children. -/
  | node (label : Label) (children : List Tree)
deriving Repr, Inhabited

namespace Tree

/-- The label at the root. -/
def label : Tree → Label
  | node l _ => l

/-- The children of the root. -/
def children : Tree → List Tree
  | node _ cs => cs

/-- The kind of the root. -/
def kind (t : Tree) : Kind := t.label.kind

/-- The text of the whole tree. -/
def text (t : Tree) : String := t.label.text

/-- The offset of the first byte. -/
def start (t : Tree) : Nat := t.label.start

/-- The offset behind the last byte. -/
def stop (t : Tree) : Nat := t.label.stop

@[simp] theorem label_node (l : Label) (cs : List Tree) : (node l cs).label = l := rfl

@[simp] theorem children_node (l : Label) (cs : List Tree) : (node l cs).children = cs := rfl

/-- The tree in a role. -/
def withRole (r : Role) : Tree → Tree
  | node l cs => node { l with role := some r } cs

/-- Whether the root is a comment. -/
def isComment (t : Tree) : Bool := t.kind == .comment

/-- Whether the root is more than a token. -/
def isPart (t : Tree) : Bool := t.kind != .token

/-- The children that are more than tokens. -/
def parts (t : Tree) : List Tree :=
  t.children.filter isPart

/-- The child in that role. -/
def inRole? (t : Tree) (r : Role) : Option Tree :=
  t.children.find? (·.label.role == some r)

/-- The text of the child in that role. -/
def textInRole? (t : Tree) (r : Role) : Option String :=
  (t.inRole? r).map text

/-- The first child of that kind. Tokens are no such children. -/
def ofKind? (t : Tree) (k : Kind) : Option Tree :=
  t.parts.find? (·.kind == k)

/-- The last child that is neither a token nor a comment. -/
def lastPart? (t : Tree) : Option Tree :=
  (t.parts.filter (! ·.isComment)).getLast?

mutual
/-- The nodes of a tree, each before those below it. -/
def preorder : Tree → List Tree
  | node l cs => node l cs :: preorderAll cs
/-- The nodes of trees, one tree after another. -/
def preorderAll : List Tree → List Tree
  | [] => []
  | t :: ts => preorder t ++ preorderAll ts
end

@[simp] theorem preorderAll_append (ts us : List Tree) :
    preorderAll (ts ++ us) = preorderAll ts ++ preorderAll us := by
  induction ts with
  | nil => rfl
  | cons t ts ih => simp [preorderAll, ih]

/-- The root is the first node of a tree. -/
theorem preorder_eq_cons (t : Tree) : t.preorder = t :: preorderAll t.children := by
  cases t; rfl

mutual
/-- The number of nodes of a tree. -/
def size : Tree → Nat
  | node _ cs => sizeAll cs + 1
/-- The number of nodes of trees. -/
def sizeAll : List Tree → Nat
  | [] => 0
  | t :: ts => size t + sizeAll ts
end

end Tree

end RouteDoc.Code
