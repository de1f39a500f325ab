import WebMigration.Syntax.Grammar.Module

/-!
# Declarations

Declarations of variables, functions, classes, types, enumerations and namespaces.
-/

namespace WebMigration.Syntax.Grammar

open Reader Fragment

variable {file : List Char}

/-- A variable with its initial value. -/
def variableDeclarator (placement : Placement) : Reader file (Piece file) := do
  let target ← part .name bindingTarget
  let typed := (← dialect).hasTypes
  let mark ← if typed then opt (do let n ← sign "!"; ahead (mark ":"); return n) else pure []
  let rest ← seq [ascription placement.ends, opt (defaultValue .value placement)]
  return Piece.spanning .variableDeclarator .zero (target ++ mark ++ rest)

/-- What may follow the last of some declarators. -/
def declaratorsEnd (declarators : List (Piece file)) : EndContext :=
  match declarators.getLast? with
  | some d => if (d.child? .value).isSome then .operand else .plain
  | none => .plain

/-- Declarators separated by commas, with the end of their statement. -/
def declarators (placement : Placement) (ending : EndContext → Fragment file) : Fragment file := do
  let all ← sepBy1 (sign ",") (one (variableDeclarator placement))
  return all ++ (← ending (declaratorsEnd all))

/-- A declaration of variables. -/
def variableStatement (placement : Placement) (ending : EndContext → Fragment file) :
    Reader file (Piece file) :=
  choice [
    node .lexicalDeclaration [part .kind (choice [keyword "let", keyword "const"]),
      declarators placement ending],
    node .variableDeclaration [kw "var", declarators placement ending]]

/-- The head of a function declaration. -/
def functionHead : Fragment file := seq [opt (kw "async"), kw "function"]

/-- A declaration of a function, or of its head alone in a dialect that has types. -/
def functionDeclaration : Reader file (Piece file) := do
  let before ← progress
  let head ← functionHead
  let generator ← opt (sign "*")
  let name ← part .name identifier
  let rest ← signature true
  choice [
    do
      let body ← part .body block
      return Piece.spanning
        (if generator.isEmpty then .functionDeclaration else .generatorFunctionDeclaration)
        before.offset (head ++ generator ++ name ++ rest ++ body) (by split <;> decide),
    do
      when? ((← dialect).hasTypes && generator.isEmpty)
      let ending ← statementEnd .signature
      return Piece.spanning .functionSignature before.offset (head ++ name ++ rest ++ ending)]

/-- A declaration of a class. -/
def classDeclaration : Reader file (Piece file) :=
  choice [
    node .classDeclaration [
      star (part .decorator decorator), kw "class", part .name className, classRest],
    do
      when? (← dialect).hasTypes
      node .abstractClassDeclaration [
        star (part .decorator decorator), kw "abstract", kw "class", part .name className,
        classRest]]

/-- A declaration of an interface. -/
def interfaceDeclaration : Reader file (Piece file) :=
  node .interfaceDeclaration [
    kw "interface", part .name typeName, optTypeParameters,
    opt (one (node .extendsTypeClause [kw "extends", sepBy1 (sign ",") (part .type namedType)])),
    part .body (objectType .interfaceBody)]

/-- A declaration of an enumeration. -/
def enumDeclaration : Reader file (Piece file) :=
  node .enumDeclaration [
    opt (kw "const"), kw "enum", part .name identifier,
    part .body (node .enumBody [sign "\x7b", opt (commaList (alt [
      one (node .enumAssignment [part .name propertyName, defaultValue .value .enclosed]),
      part .name propertyName])), sign "\x7d"])]

/-- A name for a type. -/
def typeAliasDeclaration : Reader file (Piece file) :=
  node .typeAliasDeclaration [
    kw "type", part .name typeName, optTypeParameters, equals,
    part .value (enter (.type 0 true)), statementEnd .plain]

/-- The name and the body of a namespace. -/
def namespaceRest : Fragment file :=
  seq [
    part .name (choice [string, nestedName .nestedIdentifier .propertyIdentifier, identifier]),
    opt (part .body block)]

/-- A declaration in a dialect that has types. -/
def typedDeclaration (inner : Reader file (Piece file)) : Reader file (Piece file) := do
  when? (← dialect).hasTypes
  match ← peekWord with
  | some "interface" => interfaceDeclaration
  | some "type" => typeAliasDeclaration
  | some "const" | some "enum" => enumDeclaration
  | some "module" => node .module [kw "module", namespaceRest]
  | some "namespace" => node .internalModule [kw "namespace", namespaceRest]
  | some "import" => importAlias
  | some "declare" =>
      node .ambientDeclaration [kw "declare", alt [
        seq [kw "global", one block],
        one inner,
        seq [kw "module", sign ".", one (anyWord .propertyIdentifier), sign ":",
          one (enter (.type 0 true)), statementEnd .plain]]]
  | _ => refuse

/-- A declaration, where ambient ones may contain declarations of at most `depth` further levels. -/
def declarationUpTo : Nat → Reader file (Piece file)
  | 0 => refuse
  | depth + 1 =>
      choice [
        typedDeclaration (declarationUpTo depth),
        do
          match ← peekWord with
          | some "let" | some "const" | some "var" => variableStatement .final statementEnd
          | some "function" | some "async" => functionDeclaration
          | some "class" | some "abstract" => classDeclaration
          | _ =>
              match ← peekChar with
              | some '@' => classDeclaration
              | _ => refuse]

/-- A declaration. -/
def declaration : Reader file (Piece file) := declarationUpTo 4

/-- An export statement. -/
def exportStatement : Reader file (Piece file) :=
  choice [
    node .exportStatement [kw "export", exportList],
    node .exportStatement [kw "export", typedExport],
    node .exportStatement [
      star (part .decorator decorator), kw "export",
      alt [
        part .declaration declaration,
        seq [kw "default", alt [
          part .declaration declaration,
          seq [part .value (enter (.expression 1 .final)), statementEnd .operand]]]]]]

end WebMigration.Syntax.Grammar
