import WebMigration.Syntax.StatementEnd

/-!
# Patterns

Names of properties, destructuring patterns and the targets that a pattern may assign to.
-/

namespace WebMigration.Syntax.Grammar

open Reader Fragment

variable {file : List Char}

/-- The character that stands next. -/
def peekChar : Reader file (Option Char) := fun _ p => .ok p.afterGap.rest.head? p

/-- An expression between brackets. -/
def enclosedValue : Reader file (Piece file) := enter (.expression 1 .enclosed)

/-- Items separated by commas, where each item may be missing. -/
def sparseList (item : Fragment file) : Fragment file :=
  seq [opt item, star (seq [sign ",", opt item])]

/-- Items separated by commas, with an optional comma at the end. -/
def commaList (item : Fragment file) : Fragment file := seq [sepBy1 (sign ",") item, opt (sign ",")]

/-- The name of a property. -/
def propertyName : Reader file (Piece file) :=
  choice [
    anyWord .propertyIdentifier,
    lexeme .privatePropertyIdentifier privateNameLength?,
    string,
    number,
    node .computedPropertyName [sign "[", one enclosedValue, sign "]"]]

/-- A default value: the equals sign and the value. -/
def defaultValue (field : Field) (placement : Placement) : Fragment file :=
  seq [equals, part field (enter (.expression 1 placement))]

/-- A pattern, or a pattern with a default value. -/
def patternOrDefault : Reader file (Piece file) := do
  let target ← enter .pattern
  let default ← opt (defaultValue .right .enclosed)
  if default.isEmpty then return target
  else return Piece.spanning .assignmentPattern target.start (target.as .left :: default)

/-- One of the patterns that take a value apart. -/
def destructuring : Reader file (Piece file) :=
  choice [
    node .objectPattern [sign "\x7b", sparseList property, sign "\x7d"],
    node .arrayPattern [sign "[", sparseList (one patternOrDefault), sign "]"]]
where
  property : Fragment file :=
    alt [
      one (node .restPattern [sign "...", one (enter .pattern)]),
      one (node .pairPattern
        [part .key propertyName, sign ":", part .value patternOrDefault]),
      one (node .objectAssignmentPattern
        [part .left (freeWord .shorthandPropertyIdentifierPattern), defaultValue .right .enclosed]),
      one (freeWord .shorthandPropertyIdentifierPattern)]

/-- A name with a chain of member accesses. -/
def accessChain : Reader file (Piece file) := do
  let base ← choice [
    lexeme .this (wordThat (· == "this")), lexeme .super (wordThat (· == "super")), identifierValue]
  extend access base
where
  access (base : Piece file) : Reader file (Piece file) :=
    choice [
      do
        let tail ← seq [one (markUnless "." "."), part .property (choice [
          anyWord .propertyIdentifier, lexeme .privatePropertyIdentifier privateNameLength?])]
        return Piece.spanning .memberExpression base.start (base.as .object :: tail),
      do
        let tail ← seq [sign "[", part .index enclosedValue, sign "]"]
        return Piece.spanning .subscriptExpression base.start (base.as .object :: tail)]

/-- A pattern inside another pattern. -/
def pattern : Reader file (Piece file) :=
  choice [
    node .restPattern [sign "...", one (enter .pattern)],
    destructuring,
    accessChain]

/-- The target of a declaration or of a catch clause. -/
def bindingTarget : Reader file (Piece file) := choice [identifier, destructuring]

end WebMigration.Syntax.Grammar
