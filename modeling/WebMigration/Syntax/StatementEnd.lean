import WebMigration.Syntax.Lexeme

/-!
# Inserted statement ends

A statement may end without a semicolon before a closing brace, at the end of the file, or at a line
end, unless the next line starts with something that goes on with the statement.  What goes on with
a statement depends on the dialect and on whether a binary operator could follow, which is so after
an expression and not, say, after `return`.
-/

namespace WebMigration.Syntax

open Character

variable {file : List Char}

/-- What follows a statement whose end may have to be inserted. -/
structure EndContext where
  /-- A binary operator could come next. -/
  afterOperand : Bool
  /-- The head of a function was read, which a body in braces may follow. -/
  afterSignature : Bool

namespace EndContext

/-- After an expression. -/
def operand : EndContext := ⟨true, false⟩

/-- After a keyword, a type or a declaration. -/
def plain : EndContext := ⟨false, false⟩

/-- After the head of a function. -/
def signature : EndContext := ⟨false, true⟩

end EndContext

/-- Whether a comment met on the way settles the question by itself. -/
inductive CommentVerdict
  /-- A slash that starts no comment. -/
  | notComment
  /-- Comments that stay on the line. -/
  | sameLine (rest : List Char)
  /-- Comments up to a later line. -/
  | nextLine (rest : List Char)

/-- Passes blanks and at most `fuel` comments; a block comment ends the walk when `stopAtBlock` holds
and no other comment touches it. -/
def passComments (stopAtBlock : Bool) : Nat → Bool → List Char → CommentVerdict
  | 0, _, cs => .nextLine cs
  | fuel + 1, brokeLine, cs =>
      let next := cs.dropWhile isBreakableBlank
      match next with
      | '/' :: '/' :: r =>
          passComments stopAtBlock fuel brokeLine (r.dropWhile (!isLineBreak ·))
      | '/' :: '*' :: r =>
          match blockCommentRest? r with
          | none => .nextLine []
          | some n =>
              let inside := r.take n
              let brokeLine := brokeLine || inside.any isLineBreak
              let after := r.drop n
              if stopAtBlock && after.head? != some '/' then
                if brokeLine then .nextLine after else .sameLine after
              else passComments stopAtBlock fuel brokeLine after
      | '/' :: _ => .notComment
      | _ => .nextLine next

def isLetter (c : Char) : Bool := c.isAlpha || (c.toNat > 0x7f && isIdentifierPart c)

/-- Whether the line starts with the operator `in` or `instanceof`. -/
def startsWithWordOperator (cs : List Char) : Bool :=
  match cs with
  | 'i' :: 'n' :: r =>
      if (r.head?.map isLetter).getD false then
        "stanceof".toList.isPrefixOf r && !((r.drop 8).head?.map isLetter).getD false
      else true
  | _ => false

/-- Whether a line that starts so leaves the statement before it ended. -/
def Dialect.lineStartsAfresh (d : Dialect) (context : EndContext) (cs : List Char) : Bool :=
  match cs with
  | [] => true
  | c :: r =>
      if "\x60,:;*%><=?^|&/".toList.contains c then false
      else if c == '.' then !d.hasTypes && (r.head?.map Char.isDigit).getD false
      else if c == '(' || c == '[' then d.hasTypes && !context.afterOperand
      else if c == '\x7b' then !(d.hasTypes && context.afterSignature)
      else if c == '+' || c == '-' then r.head? == some c
      else if c == '!' then r.head? != some '='
      else !startsWithWordOperator cs

/-- Whether a statement end may be inserted here, looking at most `fuel` characters ahead. -/
def Dialect.insertsEndUpTo (d : Dialect) (context : EndContext) : Nat → List Char → Bool
  | 0, _ => false
  | _ + 1, [] => true
  | fuel + 1, c :: r =>
      if c == '\x7d' then
        if d.hasTypes then
          (r.dropWhile isBreakableBlank).head? != some ':' || context.afterOperand
        else true
      else if c == '/' && !d.hasTypes then
        match passComments true (r.length + 1) false (c :: r) with
        | .notComment => false
        | .sameLine rest => d.insertsEndUpTo context fuel rest
        | .nextLine rest =>
            if !context.afterOperand && rest.head? != some ',' && rest.head? != some '=' then true
            else if rest.length < (c :: r).length then d.insertsEndUpTo context fuel rest
            else false
      else if isLineBreak c then
        match passComments false (r.length + 1) false r with
        | .notComment => false
        | .sameLine rest | .nextLine rest => d.lineStartsAfresh context rest
      else if isBreakableBlank c then d.insertsEndUpTo context fuel r
      else false

/-- Whether a statement end may be inserted here. -/
def Dialect.insertsEnd (d : Dialect) (context : EndContext) (cs : List Char) : Bool :=
  d.insertsEndUpTo context (cs.length + 1) cs

/-- Whether a statement end may be inserted here or after some comments, at most `fuel` of them. -/
def Dialect.insertsEndPast (d : Dialect) (context : EndContext) : Nat → Progress file → Bool
  | 0, _ => false
  | fuel + 1, p =>
      d.insertsEnd context p.rest ||
        match p.afterComment? with
        | some q => d.insertsEndPast context fuel q
        | none => false

/-- Whether a statement end may be inserted here. -/
def endInsertable (context : EndContext) : Reader file Bool := fun s p =>
  .ok (s.dialect.insertsEndPast context (p.rest.length + 1) p) p

/-- The end of a statement: inserted where that may be, or else a semicolon. -/
def statementEnd (context : EndContext) : Fragment file := do
  if ← endInsertable context then pure [] else sign ";"

/-- The end of a statement that may also be missing. -/
def optionalStatementEnd : Fragment file := Fragment.opt (statementEnd .plain)

end WebMigration.Syntax
