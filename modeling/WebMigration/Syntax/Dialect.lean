/-!
# Dialects

The three grammars that a script file can be read with.  JavaScript knows markup but no types, plain
TypeScript knows types but no markup, and the TSX dialect knows both.
-/

namespace WebMigration.Syntax

/-- A grammar for script files. -/
inductive Dialect
  | javascript | typescript | tsx
  deriving DecidableEq, Repr, Inhabited

namespace Dialect

/-- The name under which answers report a grammar. -/
def name : Dialect → String
  | javascript => "javascript"
  | typescript => "typescript"
  | tsx => "tsx"

/-- Whether the grammar has type annotations. -/
def hasTypes : Dialect → Bool
  | javascript => false
  | _ => true

/-- Whether the grammar has markup expressions. -/
def hasMarkup : Dialect → Bool
  | typescript => false
  | _ => true

end Dialect

end WebMigration.Syntax
