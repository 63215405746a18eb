import RouteDoc.Code.Parse
import RouteDoc.Source.BuilderCall

/-!
# Parsed sources

A parsed source is a text with its tree. It answers where a class or a handler is declared, what a
property's default and a method's first return are, and which comment documents a declaration.
-/

set_option autoImplicit false

namespace RouteDoc

open Code

/-- The last part of a class name. -/
def unqualified (s : String) : String :=
  String.ofList ((s.toList.reverse.takeWhile (· != '\\')).reverse)

/-- A source and its tree. -/
structure ParsedSource where
  /-- How messages call the source. -/
  label : String
  /-- The text. -/
  source : String
  /-- The tree of the text. -/
  tree : Code.Tree

/-- What is known of a property. -/
structure DeclaredProperty where
  /-- The name. -/
  name : String
  /-- The shape of the default. -/
  default : Shape
deriving Repr

/-- What is known of a method. -/
structure DeclaredMethod where
  /-- The name. -/
  name : String
  /-- The shape of what the first return statement returns, if there is such a statement. -/
  returned : Option Shape
deriving Repr

namespace ParsedSource

/-- The parsed source of a text. -/
def parse (label source : String) : ParsedSource :=
  ⟨label, source, Code.parse source⟩

/-- A name without the backslashes around it. -/
def trimBackslashes (s : String) : String :=
  let front := s.toList.dropWhile (· == '\\')
  String.ofList (front.reverse.dropWhile (· == '\\')).reverse

/-- The namespace that the first namespace definition names. -/
def namespaceName (u : ParsedSource) : String :=
  match (u.tree.firstWhere? (·.kind == .namespaceDefinition)).bind (·.textInRole? .name) with
  | some n => trimBackslashes n
  | none => ""

/-- The full names of the classes that the source declares, in order. -/
def classNames (u : ParsedSource) : List String :=
  let space := u.namespaceName
  ((u.tree.allWhere (·.kind == .classDeclaration)).filterMap (·.textInRole? .name)).map fun n =>
    if space.isEmpty then n else space ++ "\\" ++ n

/-- Whether a node declares a class of that name. -/
def isClass (short : String) (t : Code.Tree) : Bool :=
  t.kind == .classDeclaration && t.textInRole? .name == some short

/-- Whether a node declares a method of that name. -/
def isMethod (name : String) (t : Code.Tree) : Bool :=
  t.kind == .methodDeclaration && t.textInRole? .name == some name

/-- The variable of a property: the child in the role of a name, where `Code.parse` puts it, or else
the first child that is a variable. -/
def propertyVariable? (property : Code.Tree) : Option Code.Tree :=
  (property.inRole? .name).or (property.ofKind? .variableName)

/-- The default of a property: the child in its role, where `Code.parse` puts it. A tree of another
grammar may have it as the last part of an initializer, or as the last part of the property, if that
is not the variable. The children of a node are told apart by their labels, to which their spans
belong. -/
def propertyDefault? (property : Code.Tree) : Option Code.Tree :=
  (property.inRole? .default).or
    (match property.ofKind? .propertyInitializer with
    | some initializer => initializer.lastPart?
    | none => (propertyVariable? property).bind fun v =>
      property.lastPart?.filter (·.label != v.label))

/-- Whether a node declares a property of that name. -/
def isProperty (name : String) (t : Code.Tree) : Bool :=
  t.kind == .propertyElement && (propertyVariable? t).map Code.Tree.text == some ("$" ++ name)

/-- Where a class is declared. A namespace in front of its name does not count. -/
def class? (u : ParsedSource) (className : String) : Option Cursor :=
  u.tree.locate? (isClass (unqualified className))

/-- Where the first method of that name is declared. -/
def method? (u : ParsedSource) (name : String) : Option Cursor :=
  u.tree.locate? (isMethod name)

/-- Where handlers of a class are looked for: in the class, or everywhere if the source does not
declare it. -/
def scope (u : ParsedSource) (className : Option String) : Code.Tree :=
  ((className.bind u.class?).map Cursor.focus).getD u.tree

/-- Where a handler is declared. -/
def handler? (u : ParsedSource) (className : Option String) (method : String) : Option Cursor :=
  (u.scope className).locate? (isMethod method)

/-- The declaration of the first property of that name. -/
def property? (u : ParsedSource) (name : String) : Option DeclaredProperty :=
  (u.tree.firstWhere? (isProperty name)).map fun t => ⟨name, Shape.ofOption (propertyDefault? t)⟩

/-- The first return statement in a body. -/
def firstReturn? (body : Code.Tree) : Option Code.Tree :=
  body.firstWhere? (·.kind == .returnStatement)

/-- The declaration of the first method of that name. -/
def declaredMethod? (u : ParsedSource) (name : String) : Option DeclaredMethod :=
  (u.method? name).map fun c =>
    ⟨name, ((c.focus.inRole? .body).bind firstReturn?).map fun t => Shape.ofOption t.lastPart?⟩

/-- Whether a text opens as a documentation comment. -/
def opensDoc (text : String) : Bool :=
  "/**".toList.isPrefixOf text.toList

/-- The comment that documents a declaration: the nearest documentation comment in the comments
right before it. -/
def docAbove? (declaration : Cursor) : Option String :=
  ((declaration.left.takeWhile Code.Tree.isComment).map Code.Tree.text).find? opensDoc

end ParsedSource

end RouteDoc
