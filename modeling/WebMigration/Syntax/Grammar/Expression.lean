import WebMigration.Syntax.Grammar.Markup

/-!
# Expressions

Binary operators bind in levels from 1, where conditional expressions stand, to 13; prefix operators
bind tighter.  An assignment is read as soon as its target is complete, whatever operator stands
before the target, and an arrow function may stand wherever an operand may.
-/

namespace WebMigration.Syntax.Grammar

open Reader Fragment

variable {file : List Char}

/-- One or more expressions separated by commas. -/
def expressions (placement : Placement) : Reader file (Piece file) := do
  let first ← enter (.expression 1 placement)
  let others ← star (seq [sign ",", one (enter (.expression 1 placement))])
  if others.isEmpty then return first
  else return Piece.spanning .sequenceExpression first.start (first :: others)

/-- Three dots and an expression. -/
def spread : Reader file (Piece file) := node .spreadElement [sign "...", one enclosedValue]

/-- The arguments of a call. -/
def arguments : Reader file (Piece file) :=
  node .arguments [sign "(", sparseList (alt [one spread, one enclosedValue]), sign ")"]

/-- A word that is a leaf of its own kind. -/
def leafWord (kind : Kind) (text : String)
    (hkind : kind.isPlain = true := by exact Eq.refl true) : Reader file (Piece file) :=
  lexeme kind (wordThat (· == text)) hkind

/-- A template string with its substitutions. -/
def templateString : Reader file (Piece file) :=
  node .templateString [
    sign "\x60", star (alt [templateText "\x60$\\", escape, substitution]),
    one (markHere "\x60")]
where
  escape : Fragment file := one (lexemeHere (.token "escape") escapeLength?)
  substitution : Fragment file := one (node .templateSubstitution [
    one (markHere "$\x7b"), one (expressions .enclosed), sign "\x7d"])

/-! ## Functions -/

/-- The body of a function or of a block statement. -/
def block : Reader file (Piece file) := enter .block

/-- A function that is an expression. -/
def functionExpression : Reader file (Piece file) := do
  let before ← progress
  let head ← seq [opt (kw "async"), kw "function"]
  let star ← opt (sign "*")
  let rest ← seq [opt (part .name identifier), signature false, part .body block]
  return Piece.spanning (if star.isEmpty then .functionExpression else .generatorFunction)
    before.offset (head ++ star ++ rest) (by split <;> decide)

/-- What follows the parameters of an arrow function. -/
def arrowBody (placement : Placement) : Fragment file :=
  seq [sign "=>", part .body (choice [block, enter (.expression 1 placement)])]

/-- An arrow function whose only parameter is a bare name. -/
def bareArrow (placement : Placement) : Reader file (Piece file) :=
  node .arrowFunction [part .parameter (freeWord .identifier), arrowBody placement]

/-- An arrow function with parameters in parentheses. -/
def parenthesizedArrow (placement : Placement) : Reader file (Piece file) := do
  let plain := placement.plainArrows || !(← dialect).hasTypes
  node .arrowFunction [
    optTypeParameters, part .parameters formalParameters,
    if plain then pure [] else opt (returnType false),
    arrowBody placement]

/-- An asynchronous arrow function. -/
def asyncArrow (placement : Placement) : Reader file (Piece file) := do
  let async ← keyword "async"
  let arrow ← choice [bareArrow placement, parenthesizedArrow placement]
  return Piece.spanning .arrowFunction async.start (async :: arrow.children)

/-- Marks after which a word in front of a method names the method itself. -/
def methodClosing : List Char := ['(', ':', ',', '\x7d', '=', '<', ';', '?', '!', ')']

/-- The parameters and the body of a method. -/
def methodRest : Fragment file := seq [signature false, part .body block]

/-- A member of an object. -/
def objectMember : Fragment file :=
  alt [one spread, one named]
where
  named : Reader file (Piece file) := do
    let before ← progress
    let modifiers ← star (modifier ["async", "get", "set"] methodClosing)
    let generator ← opt (sign "*")
    let name ← propertyName
    if modifiers.isEmpty && generator.isEmpty then
      choice [
        do
          let value ← seq [sign ":", part .value enclosedValue]
          return Piece.spanning .pair before.offset (name.as .key :: value),
        method before.offset [name.as .name],
        do
          when? (name.kind == .propertyIdentifier)
          return name.retag .shorthandPropertyIdentifier]
    else method before.offset (modifiers ++ generator ++ [name.as .name])
  method (start : Offset file) (head : List (Piece file)) : Reader file (Piece file) := do
    return Piece.spanning .methodDefinition start (head ++ (← methodRest))

/-- An object literal. -/
def objectLiteral : Reader file (Piece file) :=
  node .object [sign "\x7b", sparseList objectMember, sign "\x7d"]

/-- An array literal. -/
def arrayLiteral : Reader file (Piece file) :=
  node .array [sign "[", sparseList (alt [one spread, one enclosedValue]), sign "]"]

/-! ## Classes -/

/-- What a class extends and implements. -/
def classHeritage : Reader file (Piece file) := do
  if (← dialect).hasTypes then
    choice [
      node .classHeritage [one extendsClause, opt (one implementsClause)],
      node .classHeritage [one implementsClause]]
  else node .classHeritage [kw "extends", one (enter (.expression 14 .enclosed))]
where
  extendsClause : Reader file (Piece file) :=
    node .extendsClause [kw "extends", sepBy1 (sign ",") (seq [
      part .value (enter (.expression 14 .enclosed)), opt (part .typeArguments typeArguments)])]
  implementsClause : Reader file (Piece file) :=
    node .implementsClause [kw "implements", sepBy1 (sign ",") (one enclosedType)]

/-- Words that may stand in front of a member of a class. -/
def memberModifiers (d : Dialect) : List String :=
  ["static", "async", "get", "set"] ++
    if d.hasTypes then
      ["public", "private", "protected", "override", "readonly", "abstract", "declare", "accessor"]
    else []

/-- A member of a class with its end. -/
def classMember : Fragment file :=
  alt [
    sign ";",
    one (node .classStaticBlock [kw "static", part .body block]),
    do
      when? (← dialect).hasTypes
      seq [one (indexSignature true), memberEnd],
    named]
where
  named : Fragment file := do
    let before ← progress
    let d ← dialect
    let decorators ← star (part .decorator decorator)
    let modifiers ← star (modifier (memberModifiers d) methodClosing)
    let generator ← opt (sign "*")
    let name ← part .name propertyName
    let mark ← if d.hasTypes then opt (alt [sign "?", sign "!"]) else pure []
    let head := modifiers ++ generator ++ name ++ mark
    let isAbstract := modifiers.any (·.kind == .token "abstract")
    alt [
      do
        let rest ← signature true
        alt [
          do
            let body ← part .body block
            let method := Piece.spanning .methodDefinition before.offset (head ++ rest ++ body)
            let ending ← opt (sign ";")
            return decorators ++ [method] ++ ending,
          do
            when? d.hasTypes
            let method := Piece.spanning
              (if isAbstract then .abstractMethodSignature else .methodSignature)
              before.offset (head ++ rest) (by split <;> decide)
            let ending ← alt [sign ",", statementEnd .signature]
            return decorators ++ [method] ++ ending],
      do
        when? generator.isEmpty
        let type ← ascription true
        let initial ← opt (defaultValue .value .final)
        let field := Piece.spanning .fieldDefinition before.offset
          (decorators ++ head ++ type ++ initial)
        let ending ← alt [
          statementEnd (if initial.isEmpty then .plain else .operand),
          do when? d.hasTypes; sign ","]
        return field :: ending]

/-- The members of a class in braces. -/
def classBody : Reader file (Piece file) :=
  node .classBody [sign "\x7b", star classMember, sign "\x7d"]

/-- The kind of the name of a class. -/
def className : Reader file (Piece file) := do
  freeWord (if (← dialect).hasTypes then .typeIdentifier else .identifier) (by split <;> decide)

/-- What follows the keyword and the name of a class. -/
def classRest : Fragment file :=
  seq [optTypeParameters, opt (one classHeritage), part .body classBody]

/-- A class that is an expression. -/
def classExpression : Reader file (Piece file) :=
  node .classExpression [
    star (part .decorator decorator), kw "class",
    opt (do
      notAhead (keyword "implements")
      part .name className),
    classRest]

/-! ## Operands -/

/-- Kinds of node that a plain assignment may have on its left. -/
def assignable : List Kind :=
  [.identifier, .undefined, .memberExpression, .subscriptExpression, .parenthesizedExpression,
    .nonNullExpression]

/-- The operators that combine an assignment with another operator. -/
def augmentedOperators : List String :=
  [">>>=", "**=", "<<=", ">>=", "&&=", "||=", "??=", "+=", "-=", "*=", "/=", "%=", "^=", "&=", "|="]

/-- An assignment to a target that was read, or the target itself. -/
def assigned (placement : Placement) (target : Piece file) : Reader file (Piece file) := do
  if assignable.contains target.kind then
    choice [
      do
        let tail ← defaultValue .right placement
        return Piece.spanning .assignmentExpression target.start (target.as .left :: tail),
      do
        let tail ← seq [
          part .operator (choice (augmentedOperators.map mark)),
          part .right (enter (.expression 1 placement))]
        return Piece.spanning .augmentedAssignmentExpression target.start (target.as .left :: tail),
      pure target]
  else return target

/-- The mark of optional chaining. -/
def optionalChain : Reader file (Piece file) :=
  lexeme .optionalChain (markLength? "?." "0123456789")

/-- Unless a statement may end here. -/
def unlessFinished (placement : Placement) : Reader file Unit := do
  if placement.ends then when? (!(← endInsertable .operand)) else pure ()

/-- Type arguments in front of arguments or of a template, or ones that end an operand. -/
def instantiation (base : Piece file) : Reader file (Piece file) := do
  when? (← dialect).hasTypes
  let types ← part .typeArguments typeArguments
  choice [
    do
      let values ← part .arguments (choice [arguments, templateString])
      return Piece.spanning .callExpression base.start (base.as .function :: types ++ values),
    do
      let next ← peekChar
      let follows := match next with
        | none => true
        | some c => ")]:;,.?=!|&\x7d".toList.contains c
      when? (follows || (← endInsertable .operand))
      return Piece.spanning .instantiationExpression base.start (base :: types)]

/-- A member, an element, a call or a mark after an operand. -/
def suffixed (placement : Placement) (base : Piece file) : Reader file (Piece file) := do
  match ← peekChar with
  | some '.' =>
      let tail ← seq [one (markUnless "." "."), part .property memberName]
      return Piece.spanning .memberExpression base.start (base.as .object :: tail)
  | some '?' =>
      when? (base.kind != .importKeyword)
      let chain ← part .optionalChain optionalChain
      choice [
        do
          let tail ← part .property memberName
          return Piece.spanning .memberExpression base.start (base.as .object :: chain ++ tail),
        do
          let tail ← seq [sign "[", part .index (expressions .enclosed), sign "]"]
          return Piece.spanning .subscriptExpression base.start (base.as .object :: chain ++ tail),
        do
          let types ← do
            if (← dialect).hasTypes then opt (part .typeArguments typeArguments) else pure []
          let tail ← part .arguments arguments
          return Piece.spanning .callExpression base.start
            (base.as .function :: chain ++ types ++ tail)]
  | some '[' =>
      when? (base.kind != .importKeyword)
      let tail ← seq [sign "[", part .index (expressions .enclosed), sign "]"]
      return Piece.spanning .subscriptExpression base.start (base.as .object :: tail)
  | some '(' =>
      let tail ← part .arguments arguments
      return Piece.spanning .callExpression base.start (base.as .function :: tail)
  | some '\x60' =>
      when? (base.kind != .importKeyword)
      let tail ← part .arguments templateString
      return Piece.spanning .callExpression base.start (base.as .function :: tail)
  | some '!' =>
      when? (← dialect).hasTypes
      unlessFinished placement
      let tail ← one (markUnless "!" "=")
      return Piece.spanning .nonNullExpression base.start (base :: tail)
  | some '<' => instantiation base
  | _ => refuse
where
  memberName : Reader file (Piece file) :=
    choice [anyWord .propertyIdentifier, lexeme .privatePropertyIdentifier privateNameLength?]

/-- An operand with everything that follows it directly. -/
def chained (placement : Placement) (base : Piece file) : Reader file (Piece file) := do
  let whole ← extend (suffixed placement) base
  choice [
    do
      unlessFinished placement
      let tail ← part .operator (choice [mark "++", mark "--"])
      return Piece.spanning .updateExpression whole.start (whole.as .argument :: tail),
    do
      when? (whole.kind != .importKeyword)
      assigned placement whole]

/-- The object that a `new` expression builds, with the members that it is reached through. -/
def constructed (placement : Placement) : Reader file (Piece file) := do
  let base ← enter (.expression 16 placement)
  extend member base
where
  member (base : Piece file) : Reader file (Piece file) := do
    match ← peekChar with
    | some '(' | some '<' => refuse
    | _ => suffixed placement base

/-- A `new` expression. -/
def newExpression (placement : Placement) : Reader file (Piece file) :=
  choice [
    node .metaProperty [kw "new", sign ".", kw "target"],
    node .newExpression [
      kw "new", part .constructor (constructed placement),
      do
        if (← dialect).hasTypes then opt (part .typeArguments typeArguments) else pure [],
      opt (part .arguments arguments)]]

/-- An array or object literal, or a pattern that is assigned to. -/
def bracketed (placement : Placement) (literal : Reader file (Piece file)) :
    Reader file (Piece file) :=
  choice [
    do
      let value ← literal
      notAhead equals
      return value,
    do
      let target ← destructuring
      let tail ← defaultValue .right placement
      return Piece.spanning .assignmentExpression target.start (target.as .left :: tail)]

/-- An expression in parentheses. -/
def parenthesized : Reader file (Piece file) := do
  let d ← dialect
  choice [
    node .parenthesizedExpression [sign "(", one (expressions .enclosed), sign ")"],
    do
      when? d.hasTypes
      node .parenthesizedExpression [
        sign "(", one enclosedValue, part .type (typeAscription false), sign ")"]]

/-- An arrow function is complete after an expression body, and after a body in braces it is an
operand like any other. -/
def afterArrow (placement : Placement) (arrow : Piece file) : Reader file (Piece file) :=
  if (arrow.child? .body).any (·.kind == .statementBlock) then chained placement arrow
  else pure arrow

/-- An operand that starts with a word, without what follows it. -/
def wordOperand (placement : Placement) (word : String) : Reader file (Piece file) :=
  match word with
  | "async" =>
      choice [
        do
          if placement.ends then ahead (do let _ ← keyword "async"; unlessFinished placement)
          choice [functionExpression, asyncArrow placement],
        plainName]
  | "function" => functionExpression
  | "class" => classExpression
  | "new" => newExpression placement
  | "this" => leafWord .this "this"
  | "super" => leafWord .super "super"
  | "null" => leafWord .null "null"
  | "true" => leafWord .true "true"
  | "false" => leafWord .false "false"
  | "import" =>
      choice [
        node .metaProperty [kw "import", sign ".", kw "meta"],
        do
          let base ← leafWord .importKeyword "import"
          match ← peekChar with
          | some '(' | some '.' => return base
          | _ => refuse]
  | _ => plainName
where
  plainName : Reader file (Piece file) := choice [bareArrow placement, identifierValue]

/-- An operand without what follows it. -/
def bareOperand (placement : Placement) : Reader file (Piece file) := do
  match ← peekChar with
  | some '(' => choice [parenthesizedArrow placement, parenthesized]
  | some '[' => bracketed placement arrayLiteral
  | some '\x7b' => bracketed placement objectLiteral
  | some '\x60' => templateString
  | some '"' | some '\'' => string
  | some '/' => regex
  | some '@' => classExpression
  | some '#' => do
      let name ← lexeme .privatePropertyIdentifier privateNameLength?
      ahead (keyword "in")
      return name
  | some '<' => do
      let d ← dialect
      choice [
        do
          when? d.hasTypes
          parenthesizedArrow placement,
        do
          when? d.hasMarkup
          enter .markup]
  | some c =>
      if c.isDigit || c == '.' then number
      else
        match ← peekWord with
        | some w => wordOperand placement w
        | none => refuse
  | none => refuse

/-- A prefix operator with its operand. -/
def prefixed (placement : Placement) (kind : Kind) (operator : Reader file (Piece file))
    (hkind : kind.isPlain = true := by exact Eq.refl true) : Reader file (Piece file) :=
  node kind [part .operator operator, part .argument (enter (.expression 14 placement))] hkind

/-- A `yield` expression. -/
def yieldExpression (placement : Placement) : Reader file (Piece file) :=
  node .yieldExpression [kw "yield", alt [
    seq [sign "*", one (enter (.expression 1 placement))],
    do
      unlessFinished placement
      one (enter (.expression 1 placement)),
    pure []]]

/-- An operand with its prefix operators. -/
def operand (placement : Placement) : Reader file (Piece file) := do
  let whole : Reader file (Piece file) := do
    let base ← bareOperand placement
    if base.kind == .arrowFunction then afterArrow placement base
    else if base.kind == .assignmentExpression then pure base
    else chained placement base
  match ← peekChar with
  | some '!' | some '~' | some '-' | some '+' =>
      choice [
        prefixed placement .updateExpression (choice [mark "++", mark "--"]),
        prefixed placement .unaryExpression
          (choice [mark "!", mark "~", markUnless "-" "-=", markUnless "+" "+="])]
  | some '<' => do
      choice [
        whole,
        do
          when? (!(← dialect).hasMarkup)
          node .typeAssertion [one typeArguments, one (enter (.expression 14 placement))]]
  | _ =>
      match ← peekWord with
      | some "typeof" => prefixed placement .unaryExpression (keyword "typeof")
      | some "void" => prefixed placement .unaryExpression (keyword "void")
      | some "delete" => prefixed placement .unaryExpression (keyword "delete")
      | some "await" =>
          choice [
            node .awaitExpression [kw "await", one (enter (.expression 14 placement))],
            whole]
      | some "yield" => yieldExpression placement
      | _ => whole

/-! ## Operators -/

/-- A binary operator: its level, its spelling, and the characters that would make it another. -/
structure BinaryOperator where
  level : Nat
  text : String
  barred : String
  groupsRight : Bool

/-- The binary operators that are marks. -/
def binaryMarks : List BinaryOperator :=
  [⟨2, "||", "=", false⟩, ⟨3, "&&", "=", false⟩, ⟨1, "??", "=", false⟩, ⟨4, "|", "|=", false⟩,
    ⟨5, "^", "=", false⟩, ⟨6, "&", "&=", false⟩, ⟨7, "===", "", false⟩, ⟨7, "==", "=", false⟩,
    ⟨7, "!==", "", false⟩, ⟨7, "!=", "=", false⟩, ⟨8, "<=", "", false⟩, ⟨8, ">=", "", false⟩,
    ⟨8, "<", "<=", false⟩, ⟨8, ">", ">=", false⟩, ⟨10, ">>>", "=", false⟩, ⟨10, ">>", ">=", false⟩,
    ⟨10, "<<", "=", false⟩, ⟨11, "+", "+=", false⟩, ⟨11, "-", "-=", false⟩, ⟨13, "**", "=", true⟩,
    ⟨12, "*", "*=", false⟩, ⟨12, "/", "=", false⟩, ⟨12, "%", "=", false⟩]

/-- The binary operators that are words. -/
def binaryWords (withoutIn : Bool) : List String :=
  if withoutIn then ["instanceof"] else ["instanceof", "in"]

/-- The length of the question mark of a conditional expression. -/
def questionLength? (d : Dialect) : List Char → Option Nat
  | '?' :: r =>
      match r with
      | '?' :: _ => none
      | '.' :: x => if !d.hasTypes && (x.head?.map Char.isDigit).getD false then some 1 else none
      | _ =>
          if d.hasTypes then
            match (r.dropWhile Character.isBreakableBlank).head? with
            | some ':' | some ')' | some ',' => none
            | _ => some 1
          else some 1
  | _ => none

/-- An operator and its right operand after a left operand. -/
def operated (level : Nat) (placement : Placement) (left : Piece file) :
    Reader file (Piece file) := do
  let next ← peekChar
  let mark (o : BinaryOperator) : Reader file (Piece file) := do
    when? (level ≤ o.level)
    let operator ← markUnless o.text o.barred
    let right ← enter (.expression (if o.groupsRight then o.level else o.level + 1) placement)
    return Piece.spanning .binaryExpression left.start
      [left.as .left, operator.as .operator, right.as .right]
  let word (w : String) : Reader file (Piece file) := do
    when? (level ≤ 8)
    let operator ← keyword w
    let right ← enter (.expression 9 placement)
    return Piece.spanning .binaryExpression left.start
      [left.as .left, operator.as .operator, right.as .right]
  match next with
  | none => refuse
  | some c =>
      if Character.isIdentifierStart c then
        choice ((binaryWords placement.withoutIn).map word ++ [typed])
      else
        let marks := binaryMarks.filter fun o => o.text.toList.head? == some c
        choice (marks.map mark ++ [conditional])
where
  typed : Reader file (Piece file) := do
    when? ((← dialect).hasTypes && level ≤ 8)
    unlessFinished placement
    choice [
      do
        let tail ← seq [kw "as", one (choice [keyword "const", enter (.type 1 placement.ends)])]
        return Piece.spanning .asExpression left.start (left :: tail),
      do
        let tail ← seq [kw "satisfies", one (enter (.type 1 placement.ends))]
        return Piece.spanning .satisfiesExpression left.start (left :: tail)]
  branches (plainArrows : Bool) : Fragment file :=
    seq [
      part .consequence (enter (.expression 1 ⟨false, plainArrows, false⟩)), sign ":",
      part .alternative (enter (.expression 1 placement))]
  conditional : Reader file (Piece file) := do
    when? (level ≤ 1)
    let d ← dialect
    let question ← lexeme (.token "?") (questionLength? d)
    let tail ← alt [branches placement.plainArrows, do when? d.hasTypes; branches true]
    return Piece.spanning .ternaryExpression left.start (left.as .condition :: question :: tail)

/-- An expression whose operators bind at least as tightly as the level: from 14 on only operands
with their prefix operators, and from 16 on only operands without what follows them. -/
def expression (level : Nat) (placement : Placement) : Reader file (Piece file) :=
  if 16 ≤ level then bareOperand placement
  else do
    let first ← operand placement
    if 14 ≤ level then return first
    else extend (operated level placement) first

end WebMigration.Syntax.Grammar
