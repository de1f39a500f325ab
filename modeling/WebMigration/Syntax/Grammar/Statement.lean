import WebMigration.Syntax.Grammar.Declaration

/-!
# Statements

Every kind of statement, and whole files as sequences of them.  `parse` reads a whole file under a
dialect: its answer is the tree of the file, or the offset of the first token that no reading of the
file admits.
-/

namespace WebMigration.Syntax.Grammar

open Reader Fragment

variable {file : List Char}

/-- The statement below another one. -/
def body : Fragment file := part .body (enter .statement)

/-- A block of statements in braces. -/
def statementBlock : Reader file (Piece file) :=
  node .statementBlock [sign "\x7b", star (one (enter .statement)), sign "\x7d"]

/-- An expression with the end of its statement. -/
def expressionStatement : Reader file (Piece file) :=
  node .expressionStatement [one (expressions .final), statementEnd .operand]

/-- A statement with a name in front. -/
def labeledStatement : Reader file (Piece file) :=
  node .labeledStatement [part .label (freeWord .statementIdentifier), sign ":", body]

/-- A conditional statement. -/
def ifStatement : Reader file (Piece file) :=
  node .ifStatement [
    kw "if", part .condition parenthesized, part .consequence (enter .statement),
    opt (part .alternative (node .elseClause [kw "else", one (enter .statement)]))]

/-- A `switch` statement. -/
def switchStatement : Reader file (Piece file) :=
  node .switchStatement [
    kw "switch", part .value parenthesized,
    part .body (node .switchBody [sign "\x7b", star (alt [
      one (node .switchCase [
        kw "case", part .value (expressions .enclosed), sign ":", star body]),
      one (node .switchDefault [kw "default", sign ":", star body])]), sign "\x7d"])]

/-- The head of a loop over the members of something. -/
def memberLoopHead : Fragment file :=
  seq [
    sign "(",
    alt [
      seq [
        part .kind (keyword "var"), part .left bindingTarget,
        opt (defaultValue .value ⟨false, false, true⟩)],
      seq [part .kind (choice [keyword "let", keyword "const"]), part .left bindingTarget],
      part .left (choice [destructuring, accessChain, parenthesized])],
    part .operator (choice [keyword "in", keyword "of"]),
    part .right (expressions .enclosed),
    sign ")"]

/-- The head of a loop with a counter. -/
def counterLoopHead : Fragment file :=
  let header : Placement := ⟨false, false, false⟩
  seq [
    sign "(",
    alt [
      part .initializer (variableStatement header fun _ => sign ";"),
      seq [part .initializer (expressions header), sign ";"],
      part .initializer (lexeme .emptyStatement (markLength? ";" ""))],
    alt [
      seq [part .condition (expressions header), sign ";"],
      part .condition (lexeme .emptyStatement (markLength? ";" ""))],
    opt (part .increment (expressions header)),
    sign ")"]

/-- A `for` statement of either form. -/
def forStatement : Reader file (Piece file) :=
  choice [
    node .forInStatement [kw "for", opt (kw "await"), memberLoopHead, body],
    node .forStatement [kw "for", counterLoopHead, body]]

/-- A `do` statement, whose end may be missing. -/
def doStatement : Reader file (Piece file) :=
  node .doStatement [
    kw "do", body, kw "while", part .condition parenthesized, optionalStatementEnd]

/-- A `try` statement. -/
def tryStatement : Reader file (Piece file) :=
  node .tryStatement [
    kw "try", part .body block,
    opt (part .handler (node .catchClause [
      kw "catch",
      optSeq [sign "(", part .parameter bindingTarget, ascription false, sign ")"],
      part .body block])),
    opt (part .finalizer (node .finallyClause [kw "finally", part .body block]))]

/-- A jump, possibly to a label. -/
def jump (kind : Kind) (word : String)
    (hkind : kind.isPlain = true := by exact Eq.refl true) : Reader file (Piece file) :=
  node kind [
    kw word,
    do
      if ← endInsertable .plain then pure [] else opt (part .label (freeWord .statementIdentifier)),
    statementEnd .plain] hkind

/-- A `return` statement. -/
def returnStatement : Reader file (Piece file) :=
  node .returnStatement [
    kw "return",
    do
      if ← endInsertable .plain then pure []
      else alt [
        seq [one (expressions .final), statementEnd .operand],
        statementEnd .plain]]

/-- A statement that starts with one of the reserved words. -/
def reservedStatement? (word : String) : Option (Reader file (Piece file)) :=
  match word with
  | "if" => some ifStatement
  | "for" => some forStatement
  | "while" => some (node .whileStatement [kw "while", part .condition parenthesized, body])
  | "do" => some doStatement
  | "switch" => some switchStatement
  | "try" => some tryStatement
  | "return" => some returnStatement
  | "break" => some (jump .breakStatement "break")
  | "continue" => some (jump .continueStatement "continue")
  | "throw" => some (node .throwStatement [
      kw "throw", one (expressions .final), statementEnd .operand])
  | "debugger" => some (node .debuggerStatement [kw "debugger", statementEnd .plain])
  | "with" => some (node .withStatement [kw "with", part .value parenthesized, body])
  | "var" => some declaration
  | "const" => some declaration
  | "export" => some exportStatement
  | "import" => some (choice [importStatement, importAlias, expressionStatement])
  | "function" => some (choice [declaration, expressionStatement])
  | "class" => some (choice [declaration, expressionStatement])
  | _ => none

/-- A statement. -/
def statement : Reader file (Piece file) := do
  match ← peekChar with
  | none => refuse
  | some ';' => lexeme .emptyStatement (markLength? ";" "")
  | some '\x7b' => choice [statementBlock, expressionStatement]
  | some '@' => choice [exportStatement, declaration, expressionStatement]
  | some _ =>
      match ← peekWord with
      | some w =>
          match reservedStatement? w with
          | some r => r
          | none =>
              if ["let", "async", "interface", "type", "enum", "module", "namespace", "declare",
                  "abstract"].contains w then
                choice [declaration, labeledStatement, expressionStatement]
              else choice [labeledStatement, expressionStatement]
      | none => expressionStatement

/-- A line at the start of a file that names the program to run it. -/
def hashBangLine : Fragment file := one (lexemeHere .hashBangLine fun cs =>
  match cs with
  | '#' :: '!' :: r => some (2 + (r.takeWhile fun c => c != '\n' && c != '\r').length)
  | _ => none)

/-- The statements of a file, with nothing after them. -/
def program : Fragment file := do
  let statements ← seq [opt hashBangLine, star (one (enter .statement))]
  let after : Progress file ← fun _ p => .ok p.afterGap p.afterGap
  if after.rest.isEmpty then return statements else refuse

/-- The reader of a construct. -/
def read : Goal → Reader file (Piece file)
  | .statement => statement
  | .block => statementBlock
  | .expression level placement => expression level placement
  | .pattern => pattern
  | .type level ends => typeExpression level ends
  | .markup => element

/-- Reads a construct with at most `fuel` constructs inside each other. -/
def readWith (d : Dialect) : Nat → Goal → Progress file → Reply file (Piece file)
  | 0, _, p => .fail p.reach
  | fuel + 1, goal, p => read goal ⟨d, readWith d fuel⟩ p

end WebMigration.Syntax.Grammar

namespace WebMigration.Syntax

/-- The tree of a file, or the offset of the token where reading it fails. -/
def parse (d : Dialect) (text : List Char) : Except Nat (Piece text) :=
  let fuel := 8 * (text.length + 4)
  match Grammar.program ⟨d, Grammar.readWith d fuel⟩ (Progress.start text) with
  | .fail reach => .error reach
  | .ok statements after => .ok (.program after.comments.reverse statements)

end WebMigration.Syntax
