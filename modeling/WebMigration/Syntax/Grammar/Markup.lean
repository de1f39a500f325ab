import WebMigration.Syntax.Grammar.TypeExpression

/-!
# Markup

Markup elements inside expressions.  An element is an opening tag, children and a closing tag, or a
tag that closes itself; the closing name need not repeat the opening one, and a tag without a name
is a fragment.  Text ends at a brace, an angle bracket or an ampersand, and an ampersand must start
a character reference.
-/

namespace WebMigration.Syntax.Grammar

open Reader Fragment

variable {file : List Char}

/-- The length of a name with a hyphen in it. -/
def hyphenatedLength? (cs : List Char) : Option Nat :=
  let isStart (c : Char) : Bool := c.isAlpha || c == '_' || c == '$'
  let isPart (c : Char) : Bool := isStart c || c.isDigit
  match cs with
  | c :: _ =>
      let head := (cs.takeWhile isPart).length
      if isStart c && (cs.drop head).head? == some '-' then
        some (head + ((cs.drop head).takeWhile fun c => isPart c || c == '-').length)
      else none
  | [] => none

/-- The length of a character reference. -/
def referenceLength? : List Char → Option Nat
  | '&' :: '#' :: x :: r =>
      if x == 'x' || x == 'X' then
        let n := (r.takeWhile Character.isHexDigit).length
        if 1 ≤ n && n ≤ 6 && (r.drop n).head? == some ';' then some (n + 4) else none
      else
        let n := ((x :: r).takeWhile Char.isDigit).length
        if 1 ≤ n && n ≤ 5 && ((x :: r).drop n).head? == some ';' then some (n + 3) else none
  | '&' :: r =>
      let n := (r.takeWhile Char.isAlpha).length
      if 1 ≤ n && n ≤ 30 && (r.drop n).head? == some ';' then some (n + 2) else none
  | _ => none

/-- The number of characters up to and including the closing quote of an attribute string, given its
inside; the first `sure` characters are known. -/
def attributeStringRest? (quote : Char) : Nat → List Char → Option Nat
  | _, [] => none
  | sure + 1, _ :: r => (attributeStringRest? quote sure r).map (· + 1)
  | 0, c :: r =>
      if c == quote then some 1
      else if c == '&' then
        match referenceLength? (c :: r) with
        | some (n + 1) => (attributeStringRest? quote n r).map (· + 1)
        | _ =>
            match r.head? with
            | some d =>
                if d == '#' || d.isAlpha || d == quote then none
                else (attributeStringRest? quote 1 r).map (· + 1)
            | none => none
      else (attributeStringRest? quote 0 r).map (· + 1)

/-- The length of an attribute string. -/
def attributeStringLength? : List Char → Option Nat
  | '"' :: r => (attributeStringRest? '"' 0 r).map (· + 1)
  | '\'' :: r => (attributeStringRest? '\'' 0 r).map (· + 1)
  | _ => none

theorem closedBy_attributeStringRest? (quote : Char) (sure : Nat) (cs : List Char) :
    ClosedBy quote (attributeStringRest? quote sure cs) cs := by
  fun_induction attributeStringRest? quote sure cs with
  | case1 | case5 | case7 => exact .none
  | case3 c r h => exact .one (by simpa using h)
  | case2 _ _ _ ih | case4 _ _ _ _ _ _ ih | case6 _ _ _ _ _ _ _ _ ih | case8 _ _ _ _ ih =>
      exact ih.next

theorem quoted_attributeStringLength? : Quoted attributeStringLength? := by
  intro cs n h
  unfold attributeStringLength? at h
  split at h
  · exact (closedBy_attributeStringRest? _ _ _).quoted (by decide) h
  · exact (closedBy_attributeStringRest? _ _ _).quoted (by decide) h
  · cases h

/-- The length of the text between tags, if there is more than indentation. -/
def markupTextLength? (cs : List Char) : Option Nat :=
  let run := cs.takeWhile fun c => !("<>\x7b\x7d&".toList.contains c)
  if sawText false run then some run.length else none
where
  sawText : Bool → List Char → Bool
    | _, [] => false
    | atLineStart, c :: r =>
        if c == '\n' then sawText true r
        else if atLineStart && Character.isBreakableBlank c then sawText true r
        else true

/-- A plain or hyphenated name. -/
def markupWord (kind : Kind)
    (hkind : kind.isPlain = true := by exact Eq.refl true) : Reader file (Piece file) :=
  choice [lexeme .jsxIdentifier hyphenatedLength?, anyWord kind hkind]

/-- A name with a colon in it. -/
def namespaceName : Reader file (Piece file) :=
  node .jsxNamespaceName [one (markupWord .identifier), sign ":", one (markupWord .identifier)]

/-- The name of an element. -/
def elementName : Reader file (Piece file) :=
  choice [
    namespaceName,
    lexeme .jsxIdentifier hyphenatedLength?,
    do
      let first ← anyWord .identifier
      extend (fun n => do
          let tail ← seq [one (markUnless "." "."), part .property (anyWord .propertyIdentifier)]
          return Piece.spanning .memberExpression n.start (n.as .object :: tail))
        first]

/-- An expression in braces, which may be missing. -/
def markupExpression : Reader file (Piece file) :=
  node .jsxExpression [
    sign "\x7b",
    opt (alt [
      one (node .spreadElement [sign "...", one enclosedValue]),
      one (do
        let first ← enclosedValue
        let others ← star (seq [sign ",", one enclosedValue])
        if others.isEmpty then return first
        else return Piece.spanning .sequenceExpression first.start (first :: others))]),
    sign "\x7d"]

/-- A string that is the value of an attribute. -/
def attributeString : Reader file (Piece file) :=
  quotation attributeStringLength? quoted_attributeStringLength?

/-- An attribute of a tag. -/
def markupAttribute : Reader file (Piece file) :=
  choice [
    markupExpression,
    node .jsxAttribute [
      one (choice [
        namespaceName, do return (← markupWord .propertyIdentifier).retag .propertyIdentifier]),
      optSeq [equals, one (choice [
        attributeString, markupExpression, enter .markup])]]]

/-- The name, the type arguments and the attributes of a tag. -/
def tagInside : Fragment file :=
  seq [part .name elementName, types, star (part .markupAttribute markupAttribute)]
where
  types : Fragment file := do
    if (← dialect).hasTypes then opt (part .typeArguments typeArguments) else pure []

/-- A child of an element. -/
def child : Fragment file :=
  alt [
    one (lexemeHere .jsxText markupTextLength?),
    one (lexeme .htmlCharacterReference referenceLength?),
    one markupExpression,
    one (enter .markup)]

/-- An element. -/
def element : Reader file (Piece file) := do
  let opening ← one (markUnless "<" "/")
  let inside ← opt tagInside
  choice [
    do
      when? (!inside.isEmpty)
      let closing ← sign "/>"
      return Piece.spanning .jsxSelfClosingElement .zero (opening ++ inside ++ closing),
    do
      let closing ← sign ">"
      let openTag := Piece.spanning .jsxOpeningElement .zero (opening ++ inside ++ closing)
      let children ← star child
      let closeTag ← node .jsxClosingElement [sign "</", opt (part .name elementName), sign ">"]
      return Piece.spanning .jsxElement .zero
        (openTag.as .openTag :: children ++ [closeTag.as .closeTag])]

end WebMigration.Syntax.Grammar
