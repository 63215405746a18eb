/-!
# Kinds of nodes

What a node of a tree of PHP code is. Expressions have kinds of their own, since an expression whose
value is not worked out is reported by its kind; statements and the parts of declarations that
nothing asks for share a few kinds.
-/

set_option autoImplicit false

namespace RouteDoc.Code

/-- The kind of a node. -/
inductive Kind where
  -- Leaves
  /-- A keyword, an operator or a mark of punctuation. -/
  | token
  /-- A comment. -/
  | comment
  /-- Text outside the code, and the marks that open code. -/
  | markup
  /-- A piece of a string that stands for itself. An escape is no piece of its own: it belongs to
  the text around it. -/
  | stringContent
  -- Names and variables
  | name
  | qualifiedName
  | relativeScope
  | variableName
  | dynamicVariableName
  -- Literals
  | integer
  | float
  | boolean
  | null
  | string
  | encapsedString
  | heredoc
  | nowdoc
  | shellCommandExpression
  -- Operators
  | unaryOpExpression
  | errorSuppressionExpression
  | binaryExpression
  | conditionalExpression
  | castExpression
  | cloneExpression
  | throwExpression
  | yieldExpression
  | printIntrinsic
  | includeExpression
  | includeOnceExpression
  | requireExpression
  | requireOnceExpression
  | assignmentExpression
  | referenceAssignmentExpression
  | augmentedAssignmentExpression
  | updateExpression
  -- Calls and accesses
  | objectCreationExpression
  | functionCallExpression
  | memberCallExpression
  | nullsafeMemberCallExpression
  | memberAccessExpression
  | nullsafeMemberAccessExpression
  | scopedCallExpression
  | scopedPropertyAccessExpression
  | classConstantAccessExpression
  | subscriptExpression
  -- Other expressions
  | arrayCreationExpression
  | listLiteral
  | parenthesizedExpression
  | anonymousFunction
  | arrowFunction
  | matchExpression
  -- Parts of expressions
  | arrayElementInitializer
  | arguments
  | argument
  | variadicUnpacking
  | variadicPlaceholder
  | byRef
  -- Declarations and statements
  | program
  | namespaceDefinition
  | namespaceName
  | classDeclaration
  | typeDeclaration
  | memberList
  | methodDeclaration
  | propertyDeclaration
  | propertyElement
  | propertyInitializer
  | declaration
  | attributeList
  | modifier
  | parameters
  | typeName
  | block
  | returnStatement
  | statement
  | clause
deriving DecidableEq, Repr, Inhabited

/-- The word for a kind. -/
def Kind.word : Kind → String
  | token => "token"
  | comment => "comment"
  | markup => "text"
  | stringContent => "string_content"
  | name => "name"
  | qualifiedName => "qualified_name"
  | relativeScope => "relative_scope"
  | variableName => "variable_name"
  | dynamicVariableName => "dynamic_variable_name"
  | integer => "integer"
  | float => "float"
  | boolean => "boolean"
  | null => "null"
  | string => "string"
  | encapsedString => "encapsed_string"
  | heredoc => "heredoc"
  | nowdoc => "nowdoc"
  | shellCommandExpression => "shell_command_expression"
  | unaryOpExpression => "unary_op_expression"
  | errorSuppressionExpression => "error_suppression_expression"
  | binaryExpression => "binary_expression"
  | conditionalExpression => "conditional_expression"
  | castExpression => "cast_expression"
  | cloneExpression => "clone_expression"
  | throwExpression => "throw_expression"
  | yieldExpression => "yield_expression"
  | printIntrinsic => "print_intrinsic"
  | includeExpression => "include_expression"
  | includeOnceExpression => "include_once_expression"
  | requireExpression => "require_expression"
  | requireOnceExpression => "require_once_expression"
  | assignmentExpression => "assignment_expression"
  | referenceAssignmentExpression => "reference_assignment_expression"
  | augmentedAssignmentExpression => "augmented_assignment_expression"
  | updateExpression => "update_expression"
  | objectCreationExpression => "object_creation_expression"
  | functionCallExpression => "function_call_expression"
  | memberCallExpression => "member_call_expression"
  | nullsafeMemberCallExpression => "nullsafe_member_call_expression"
  | memberAccessExpression => "member_access_expression"
  | nullsafeMemberAccessExpression => "nullsafe_member_access_expression"
  | scopedCallExpression => "scoped_call_expression"
  | scopedPropertyAccessExpression => "scoped_property_access_expression"
  | classConstantAccessExpression => "class_constant_access_expression"
  | subscriptExpression => "subscript_expression"
  | arrayCreationExpression => "array_creation_expression"
  | listLiteral => "list_literal"
  | parenthesizedExpression => "parenthesized_expression"
  | anonymousFunction => "anonymous_function"
  | arrowFunction => "arrow_function"
  | matchExpression => "match_expression"
  | arrayElementInitializer => "array_element_initializer"
  | arguments => "arguments"
  | argument => "argument"
  | variadicUnpacking => "variadic_unpacking"
  | variadicPlaceholder => "variadic_placeholder"
  | byRef => "by_ref"
  | program => "program"
  | namespaceDefinition => "namespace_definition"
  | namespaceName => "namespace_name"
  | classDeclaration => "class_declaration"
  | typeDeclaration => "type_declaration"
  | memberList => "declaration_list"
  | methodDeclaration => "method_declaration"
  | propertyDeclaration => "property_declaration"
  | propertyElement => "property_element"
  | propertyInitializer => "property_initializer"
  | declaration => "declaration"
  | attributeList => "attribute_list"
  | modifier => "modifier"
  | parameters => "formal_parameters"
  | typeName => "type"
  | block => "compound_statement"
  | returnStatement => "return_statement"
  | statement => "statement"
  | clause => "clause"

/-- What a node is to its parent. -/
inductive Role where
  /-- The name of a declaration, a member or a variable. -/
  | name
  /-- The body of a declaration. -/
  | body
  /-- The value whose member is accessed. -/
  | object
  /-- The class whose member is accessed. -/
  | scope
  /-- The arguments of a call. -/
  | arguments
  /-- The default of a property. -/
  | default
deriving DecidableEq, Repr

end RouteDoc.Code
