/-!
# Node kinds

The kinds of node that a syntax tree of a script file can hold.  A named kind stands for a rule of
the grammar; a token stands for a keyword or a punctuation mark and carries its spelling.
-/

namespace WebMigration.Syntax

/-- What a node of a syntax tree stands for. -/
inductive Kind
  -- whole files and what may stand anywhere
  | program | hashBangLine | comment
  -- what no rule of the grammar stands for
  | error
  -- modules
  | exportStatement | namespaceExport | exportClause | exportSpecifier
  | importKeyword | importStatement | importClause | namespaceImport | namedImports
  | importSpecifier | importAttribute | importRequireClause | importAlias
  -- statements
  | debuggerStatement | expressionStatement | variableDeclaration | lexicalDeclaration
  | usingDeclaration | variableDeclarator | statementBlock | elseClause | ifStatement
  | switchStatement | switchBody | switchCase | switchDefault | forStatement | forInStatement
  | whileStatement | doStatement | tryStatement | catchClause | finallyClause | withStatement
  | breakStatement | continueStatement | returnStatement | throwStatement | emptyStatement
  | labeledStatement
  -- functions and classes
  | functionDeclaration | functionExpression | generatorFunctionDeclaration | generatorFunction
  | functionSignature | arrowFunction | methodDefinition | methodSignature | formalParameters
  | requiredParameter | optionalParameter | classDeclaration | abstractClassDeclaration
  | classExpression | classHeritage | extendsClause | implementsClause | classBody
  | classStaticBlock | fieldDefinition | abstractMethodSignature | decorator
  | accessibilityModifier | overrideModifier
  -- expressions
  | parenthesizedExpression | yieldExpression | awaitExpression | assignmentExpression
  | augmentedAssignmentExpression | ternaryExpression | binaryExpression | unaryExpression
  | updateExpression | sequenceExpression | callExpression | newExpression | memberExpression
  | subscriptExpression | metaProperty | optionalChain | arguments | spreadElement
  | object | pair | computedPropertyName | array | asExpression | satisfiesExpression
  | nonNullExpression | typeAssertion | instantiationExpression
  -- patterns
  | objectPattern | arrayPattern | pairPattern | restPattern | assignmentPattern
  | objectAssignmentPattern
  -- leaves
  | identifier | typeIdentifier | propertyIdentifier | privatePropertyIdentifier
  | shorthandPropertyIdentifier | shorthandPropertyIdentifierPattern | statementIdentifier
  | this | super | true | false | null | undefined | number | string | regex
  | templateString | templateSubstitution
  -- markup
  | jsxElement | jsxOpeningElement | jsxClosingElement | jsxSelfClosingElement | jsxText
  | jsxExpression | jsxAttribute | jsxIdentifier | jsxNamespaceName | htmlCharacterReference
  -- types and declarations about types
  | typeAscription | typeArguments | typeParameters | typeParameter | constraint | defaultType
  | predefinedType | nestedIdentifier | nestedTypeIdentifier | genericType | objectType
  | arrayType | tupleType | optionalType | restType | functionType | constructorType
  | readonlyType | inferType | typeQuery | indexTypeQuery | thisType | existentialType
  | literalType | lookupType | conditionalType | templateLiteralType | templateType
  | intersectionType | unionType | flowMaybeType | parenthesizedType | typePredicate
  | typePredicateAscription | asserts | assertsAscription | propertySignature | callSignature
  | constructSignature | indexSignature | mappedTypeClause | interfaceDeclaration
  | extendsTypeClause | interfaceBody | enumDeclaration | enumBody | enumAssignment
  | typeAliasDeclaration | module | internalModule | ambientDeclaration
  /-- A keyword or a punctuation mark, with its spelling. -/
  | token (text : String)
  deriving DecidableEq, Repr, Inhabited

/-- Keywords and punctuation marks are the nodes without a name of their own. -/
def Kind.isNamed : Kind → Bool
  | .token _ => Bool.false
  | _ => Bool.true

/-- Whether only the ends of nodes of a kind count, not what stands at them. -/
def Kind.isPlain : Kind → Bool
  | .string | .importStatement => Bool.false
  | _ => Bool.true

theorem Kind.ne_string {kind : Kind} (h : kind.isPlain = Bool.true) : kind ≠ .string := by
  rintro rfl
  cases h

theorem Kind.ne_importStatement {kind : Kind} (h : kind.isPlain = Bool.true) :
    kind ≠ .importStatement := by
  rintro rfl
  cases h

/-- The part that a child plays in its parent. -/
inductive Field
  | name | alias | source | declaration | value | function | arguments | object | property
  | index | left | right | operator | kind | body | condition | consequence | alternative
  | initializer | increment | label | handler | finalizer | parameter | parameters | key
  | openTag | closeTag | markupAttribute | decorator | member | constructor | optionalChain | argument
  | type | typeArguments | typeParameters | returnType | pattern
  deriving DecidableEq, Repr, Inhabited

end WebMigration.Syntax
