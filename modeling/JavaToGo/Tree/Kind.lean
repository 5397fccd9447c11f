/-!
# Kinds of syntax nodes

The kinds of the Java grammar that some rule of the conversion looks at; any
other kind is kept by its name.
-/

namespace JavaToGo.Tree

/-- The kinds of nodes that conversion tells apart. -/
inductive Kind where
  -- Units and what is passed over.
  | program | lineComment | blockComment | packageDeclaration | importDeclaration
  | moduleDeclaration
  -- Declarations.
  | classDeclaration | interfaceDeclaration | enumDeclaration | recordDeclaration
  | annotationTypeDeclaration | classBody | enumBodyDeclarations | enumConstant
  | fieldDeclaration | constantDeclaration | methodDeclaration | constructorDeclaration
  | compactConstructorDeclaration | staticInitializer | modifiers | extendsInterfaces | typeList
  | typeParameter | formalParameter | spreadParameter | receiverParameter | throws
  | variableDeclarator
  -- Types.
  | typeIdentifier | scopedTypeIdentifier | genericType | typeArguments | arrayType
  | integralType | floatingPointType | booleanType | wildcard | annotatedType | dimensions
  | dimensionsExpr
  -- Statements.
  | block | expressionStatement | localVariableDeclaration | ifStatement | whileStatement
  | doStatement | forStatement | enhancedForStatement | returnStatement | throwStatement
  | tryStatement | tryWithResourcesStatement | resource | catchClause | catchFormalParameter
  | catchType | finallyClause | switchBlockStatementGroup | switchRule | switchLabel
  | yieldStatement | breakStatement | continueStatement | assertStatement | labeledStatement
  | explicitConstructorInvocation | emptyStatement
  -- Expressions.
  | identifier | self | super | fieldAccess | methodInvocation | objectCreation | arrayCreation
  | arrayInitializer | arrayAccess | assignment | binary | unary | update | parenthesized | cast
  | instanceOf | ternary | switchExpression | lambda | methodReference | classLiteral
  | decimalInteger | hexInteger | octalInteger | binaryInteger | decimalFloat | hexFloat
  | stringLiteral | characterLiteral | trueLiteral | falseLiteral | nullLiteral
  -- Words and signs.
  | publicWord | privateWord | protectedWord | staticWord | finalWord | abstractWord
  | defaultWord | newWord | increment | decrement
  | other (name : String)
deriving DecidableEq, Repr, Inhabited

namespace Kind

/-- The kinds and their names in the grammar. -/
def names : List (Kind × String) :=
  [(.program, "program"), (.lineComment, "line_comment"), (.blockComment, "block_comment"),
    (.packageDeclaration, "package_declaration"), (.importDeclaration, "import_declaration"),
    (.moduleDeclaration, "module_declaration"), (.classDeclaration, "class_declaration"),
    (.interfaceDeclaration, "interface_declaration"), (.enumDeclaration, "enum_declaration"),
    (.recordDeclaration, "record_declaration"),
    (.annotationTypeDeclaration, "annotation_type_declaration"), (.classBody, "class_body"),
    (.enumBodyDeclarations, "enum_body_declarations"), (.enumConstant, "enum_constant"),
    (.fieldDeclaration, "field_declaration"), (.constantDeclaration, "constant_declaration"),
    (.methodDeclaration, "method_declaration"),
    (.constructorDeclaration, "constructor_declaration"),
    (.compactConstructorDeclaration, "compact_constructor_declaration"),
    (.staticInitializer, "static_initializer"), (.modifiers, "modifiers"),
    (.extendsInterfaces, "extends_interfaces"), (.typeList, "type_list"),
    (.typeParameter, "type_parameter"), (.formalParameter, "formal_parameter"),
    (.spreadParameter, "spread_parameter"), (.receiverParameter, "receiver_parameter"),
    (.throws, "throws"), (.variableDeclarator, "variable_declarator"),
    (.typeIdentifier, "type_identifier"), (.scopedTypeIdentifier, "scoped_type_identifier"),
    (.genericType, "generic_type"), (.typeArguments, "type_arguments"), (.arrayType, "array_type"),
    (.integralType, "integral_type"), (.floatingPointType, "floating_point_type"),
    (.booleanType, "boolean_type"), (.wildcard, "wildcard"), (.annotatedType, "annotated_type"),
    (.dimensions, "dimensions"), (.dimensionsExpr, "dimensions_expr"), (.block, "block"),
    (.expressionStatement, "expression_statement"),
    (.localVariableDeclaration, "local_variable_declaration"), (.ifStatement, "if_statement"),
    (.whileStatement, "while_statement"), (.doStatement, "do_statement"),
    (.forStatement, "for_statement"), (.enhancedForStatement, "enhanced_for_statement"),
    (.returnStatement, "return_statement"), (.throwStatement, "throw_statement"),
    (.tryStatement, "try_statement"), (.tryWithResourcesStatement, "try_with_resources_statement"),
    (.resource, "resource"), (.catchClause, "catch_clause"),
    (.catchFormalParameter, "catch_formal_parameter"), (.catchType, "catch_type"),
    (.finallyClause, "finally_clause"),
    (.switchBlockStatementGroup, "switch_block_statement_group"), (.switchRule, "switch_rule"),
    (.switchLabel, "switch_label"), (.yieldStatement, "yield_statement"),
    (.breakStatement, "break_statement"), (.continueStatement, "continue_statement"),
    (.assertStatement, "assert_statement"), (.labeledStatement, "labeled_statement"),
    (.explicitConstructorInvocation, "explicit_constructor_invocation"), (.emptyStatement, ";"),
    (.identifier, "identifier"), (.self, "this"), (.super, "super"), (.fieldAccess, "field_access"),
    (.methodInvocation, "method_invocation"), (.objectCreation, "object_creation_expression"),
    (.arrayCreation, "array_creation_expression"), (.arrayInitializer, "array_initializer"),
    (.arrayAccess, "array_access"), (.assignment, "assignment_expression"),
    (.binary, "binary_expression"), (.unary, "unary_expression"), (.update, "update_expression"),
    (.parenthesized, "parenthesized_expression"), (.cast, "cast_expression"),
    (.instanceOf, "instanceof_expression"), (.ternary, "ternary_expression"),
    (.switchExpression, "switch_expression"), (.lambda, "lambda_expression"),
    (.methodReference, "method_reference"), (.classLiteral, "class_literal"),
    (.decimalInteger, "decimal_integer_literal"), (.hexInteger, "hex_integer_literal"),
    (.octalInteger, "octal_integer_literal"), (.binaryInteger, "binary_integer_literal"),
    (.decimalFloat, "decimal_floating_point_literal"), (.hexFloat, "hex_floating_point_literal"),
    (.stringLiteral, "string_literal"), (.characterLiteral, "character_literal"),
    (.trueLiteral, "true"), (.falseLiteral, "false"), (.nullLiteral, "null_literal"),
    (.publicWord, "public"), (.privateWord, "private"), (.protectedWord, "protected"),
    (.staticWord, "static"), (.finalWord, "final"), (.abstractWord, "abstract"),
    (.defaultWord, "default"), (.newWord, "new"), (.increment, "++"), (.decrement, "--")]

def name : Kind → String
  | .other name => name
  | kind => (names.lookup kind).getD ""

def ofName (name : String) : Kind :=
  ((names.find? (·.2 == name)).map Prod.fst).getD (.other name)

def isComment : Kind → Bool
  | .lineComment | .blockComment => true
  | _ => false

/-- A class, an interface, an enumeration or a record. -/
def isTypeDeclaration : Kind → Bool
  | .classDeclaration | .interfaceDeclaration | .enumDeclaration | .recordDeclaration => true
  | _ => false

theorem ofName_name (name : String) : (ofName name).name = name := by
  have hnames : ∀ entry ∈ names, entry.1.name = entry.2 := by decide +kernel
  unfold ofName
  cases h : names.find? (·.2 == name) with
  | none => rfl
  | some entry =>
    exact (hnames entry (List.mem_of_find?_eq_some h)).trans (by simpa using List.find?_some h)

end Kind

end JavaToGo.Tree
