import WebMigration.Syntax.Grammar.Expression

/-!
# Imports and exports

The statements that name other modules, apart from the declarations that an export may contain.
-/

namespace WebMigration.Syntax.Grammar

open Reader Fragment

variable {file : List Char}

/-- The word `from` and the name of a module. -/
def fromClause : Fragment file := seq [kw "from", part .source string]

/-- The name of an export. -/
def exportName : Reader file (Piece file) := choice [identifier, string, keyword "default"]

/-- The name under which an import knows an export. -/
def importedName : Reader file (Piece file) :=
  choice [identifier, string, lexeme .identifier (wordThat (· == "default"))]

/-- The words that mark an import or an export of types only. -/
def typeOnlyMark : Fragment file := do
  when? (← dialect).hasTypes
  alt [kw "type", kw "typeof"]

/-- Everything a module exports, as one object. -/
def namespaceImport : Reader file (Piece file) :=
  node .namespaceImport [sign "*", kw "as", one identifier]

/-- One import in braces. -/
def importSpecifier : Reader file (Piece file) :=
  choice [
    node .importSpecifier [part .name importedName, kw "as", part .alias identifier],
    node .importSpecifier [typeOnlyMark, part .name importedName, kw "as", part .alias identifier],
    node .importSpecifier [typeOnlyMark, part .name identifier],
    node .importSpecifier [part .name identifier]]

/-- Imports in braces. -/
def namedImports : Reader file (Piece file) :=
  node .namedImports [sign "\x7b", opt (commaList (one importSpecifier)), sign "\x7d"]

/-- What an import statement binds. -/
def importClause : Reader file (Piece file) :=
  choice [
    node .importClause [one namespaceImport],
    node .importClause [one namedImports],
    node .importClause [
      one identifier, optSeq [sign ",", one (choice [namespaceImport, namedImports])]]]

/-- An import of a name of another namespace. -/
def importAlias : Reader file (Piece file) := do
  when? (← dialect).hasTypes
  node .importAlias [
    kw "import", one identifier, equals,
    one (choice [nestedName .nestedIdentifier .propertyIdentifier, identifier]),
    do
      notAhead (mark "(")
      statementEnd .plain]

/-- The form of an import in which a name stands for a module as a whole. -/
def importRequireClause : Fragment file := do
  when? (← dialect).hasTypes
  one (node .importRequireClause [
    one identifier, equals, kw "require", sign "(", part .source string, sign ")"])

/-- What an import statement says about a module. -/
def importTail : Fragment file :=
  alt [seq [one importClause, fromClause], importRequireClause, part .source string]

/-- An import statement. -/
def importStatement : Reader file (Piece file) := do
  let word ← spelled "import"
  return .importing word.1 word.2 (← seq [
    alt [seq [typeOnlyMark, importTail], importTail],
    optSeq [one (node .importAttribute [kw "with", one objectLiteral])],
    statementEnd .plain])

/-- One export in braces. -/
def exportSpecifier : Reader file (Piece file) :=
  choice [
    node .exportSpecifier [part .name exportName, kw "as", part .alias exportName],
    node .exportSpecifier [typeOnlyMark, part .name exportName, kw "as", part .alias exportName],
    node .exportSpecifier [typeOnlyMark, part .name exportName],
    node .exportSpecifier [part .name exportName]]

/-- Exports in braces. -/
def exportClause : Reader file (Piece file) :=
  node .exportClause [sign "\x7b", opt (commaList (one exportSpecifier)), sign "\x7d"]

/-- The forms of an export that declare nothing, after the keyword. -/
def exportList : Fragment file :=
  alt [
    seq [sign "*", fromClause, statementEnd .plain],
    seq [one (node .namespaceExport [sign "*", kw "as", one exportName]), fromClause,
      statementEnd .plain],
    seq [one exportClause, fromClause, statementEnd .plain],
    seq [one exportClause, statementEnd .plain]]

/-- The forms of an export that only dialects with types have, after the keyword. -/
def typedExport : Fragment file := do
  when? (← dialect).hasTypes
  alt [
    seq [kw "type", one exportClause, opt fromClause, statementEnd .plain],
    seq [equals, one (enter (.expression 1 .final)), statementEnd .operand],
    seq [kw "as", kw "namespace", one identifier, statementEnd .plain],
    one importAlias]

end WebMigration.Syntax.Grammar
