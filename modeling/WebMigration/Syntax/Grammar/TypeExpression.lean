import WebMigration.Syntax.Grammar.Pattern

/-!
# Types

Type expressions of the dialects that have them, the heads of functions, and the members of object
types.  Operators on types bind in four levels: conditional types loosest, then unions, then
intersections, then prefix operators.
-/

namespace WebMigration.Syntax.Grammar

open Reader Fragment

variable {file : List Char}

/-- A type between brackets or before a mark that ends it. -/
def enclosedType : Reader file (Piece file) := enter (.type 0 false)

/-- A type identifier. -/
def typeName : Reader file (Piece file) := freeWord .typeIdentifier

/-- Type arguments in angle brackets. -/
def typeArguments : Reader file (Piece file) :=
  node .typeArguments [sign "<", commaList (one enclosedType), sign ">"]

/-- A type after a colon. -/
def typeAscription (ends : Bool) : Reader file (Piece file) :=
  node .typeAscription [sign ":", one (enter (.type 0 ends))]

/-- A type after a colon, or nothing, in a dialect that has types. -/
def ascription (ends : Bool) : Fragment file := do
  if (← dialect).hasTypes then opt (part .type (typeAscription ends)) else pure []

/-- Type parameters in angle brackets. -/
def typeParameters : Reader file (Piece file) :=
  node .typeParameters [sign "<", commaList (one typeParameter), sign ">"]
where
  typeParameter : Reader file (Piece file) :=
    node .typeParameter [
      opt (kw "const"),
      part .name typeName,
      opt (part .type (node .constraint [alt [kw "extends", sign ":"], one enclosedType])),
      opt (part .value (node .defaultType [equals, one enclosedType]))]

/-- Type parameters, or nothing, in a dialect that has types. -/
def optTypeParameters : Fragment file := do
  if (← dialect).hasTypes then opt (part .typeParameters typeParameters) else pure []

/-- An expression after an at sign that marks a class or a member of one. -/
def decorator : Reader file (Piece file) :=
  node .decorator [sign "@", one (choice [
    node .parenthesizedExpression [sign "(", one target, sign ")"], target])]
where
  target : Reader file (Piece file) := do extend step (← identifier)
  step (base : Piece file) : Reader file (Piece file) :=
    choice [
      do
        let tail ← seq [one (markUnless "." "."), part .property (anyWord .propertyIdentifier)]
        return Piece.spanning .memberExpression base.start (base.as .object :: tail),
      do
        let types ← do
          if (← dialect).hasTypes then opt (part .typeArguments typeArguments) else pure []
        let values ← part .arguments (node .arguments
          [sign "(", sparseList (alt [
            one (node .spreadElement [sign "...", one enclosedValue]), one enclosedValue]), sign ")"])
        return Piece.spanning .callExpression base.start (base.as .function :: types ++ values)]

/-- Whether a word stands next that says something about what follows it, in that what follows is
neither one of the closing marks nor missing. -/
def modifierAhead (words : List String) (closing : List Char) : Reader file Unit := fun s p =>
  match lexeme .identifier (wordThat words.contains) (by decide) s p with
  | .ok _ q =>
      match q.afterGap.rest.head? with
      | some c => if closing.contains c then .fail (max p.reach p.pos) else .ok () p
      | none => .fail (max p.reach p.pos)
  | .fail n => .fail n

/-- One modifier out of a list of words, under the kind that it has in the tree. -/
def modifier (words : List String) (closing : List Char) : Fragment file := do
  modifierAhead words closing
  match ← peekWord with
  | some w =>
      if ["public", "private", "protected"].contains w then
        one (node .accessibilityModifier [kw w])
      else if w == "override" then one (node .overrideModifier [kw w])
      else kw w
  | none => refuse

/-- A parameter of a function. -/
def parameter : Fragment file := do
  if (← dialect).hasTypes then typed else one untyped
where
  untyped : Reader file (Piece file) := do
    let target ← choice [
      node .restPattern [sign "...", one (enter .pattern)], destructuring, identifierValue]
    let default ← opt (defaultValue .right .enclosed)
    if default.isEmpty then return target
    else return Piece.spanning .assignmentPattern target.start (target.as .left :: default)
  typed : Fragment file := do
    let modifiers ← seq [
      star (part .decorator decorator),
      star (modifier ["public", "private", "protected", "override", "readonly"]
        [',', ')', ':', '=', '?'])]
    let target ← part .pattern (choice [
      node .restPattern [sign "...", one (enter .pattern)], destructuring,
      lexeme .this (wordThat (· == "this")), identifierValue])
    let mark ← opt (sign "?")
    let rest ← seq [
      opt (part .type (typeAscription false)), opt (defaultValue .value .enclosed)]
    let children := modifiers ++ target ++ mark ++ rest
    let start := (children.head?.map (·.start)).getD .zero
    return [Piece.spanning (if mark.isEmpty then .requiredParameter else .optionalParameter) start
      children (by split <;> decide)]

/-- The parameters of a function in parentheses. -/
def formalParameters : Reader file (Piece file) :=
  node .formalParameters [sign "(", opt (commaList parameter), sign ")"]

/-- A type predicate such as `x is string`. -/
def typePredicate (ends : Bool) : Reader file (Piece file) :=
  node .typePredicate [
    part .name (choice [lexeme .this (wordThat (· == "this")), anyWord .identifier]),
    kw "is", part .type (enter (.type 0 ends))]

/-- What a function says about its result, without the colon. -/
def resultType (ends : Bool) : Reader file (Piece file) :=
  choice [
    node .asserts [kw "asserts", one (choice [typePredicate ends,
      lexeme .this (wordThat (· == "this")), identifier])],
    typePredicate ends,
    enter (.type 0 ends)]

/-- The result type of a function after a colon. -/
def returnType (ends : Bool) : Fragment file :=
  alt [
    part .returnType (node .assertsAscription [sign ":", one (node .asserts
      [kw "asserts", one (choice [typePredicate ends,
        lexeme .this (wordThat (· == "this")), identifier])])]),
    part .returnType (node .typePredicateAscription [sign ":", one (typePredicate ends)]),
    part .returnType (typeAscription ends)]

/-- Type parameters, parameters and result type. -/
def signature (ends : Bool) : Fragment file :=
  seq [optTypeParameters, part .parameters formalParameters, result]
where
  result : Fragment file := do
    if (← dialect).hasTypes then opt (returnType ends) else pure []

/-! ## Operands -/

/-- The names of the built-in types. -/
def predefinedTypes : List String :=
  ["any", "number", "boolean", "string", "symbol", "void", "unknown", "never", "object"]

/-- A dotted name, with the kinds for its first part and for the whole. -/
def nestedName (whole last : Kind)
    (hwhole : whole.isPlain = true := by exact Eq.refl true)
    (hlast : last.isPlain = true := by exact Eq.refl true) : Reader file (Piece file) := do
  let first ← freeWord .identifier
  let tail ← seq [one (markUnless "." "."), part .name (freeWord last hlast)]
  extend (fun n => do
      let more ← seq [one (markUnless "." "."), part .name (freeWord last hlast)]
      return Piece.spanning whole n.start (n :: more) hwhole)
    (Piece.spanning whole first.start (first :: tail) hwhole)

/-- A named type with its type arguments. -/
def namedType : Reader file (Piece file) := do
  let name ← choice [nestedName .nestedTypeIdentifier .typeIdentifier, typeName]
  let arguments ← opt (part .typeArguments typeArguments)
  if arguments.isEmpty then return name
  else return Piece.spanning .genericType name.start (name.as .name :: arguments)

/-- A member of an index signature: its name and type, or a mapping over a type. -/
def indexBinder : Fragment file :=
  alt [
    seq [part .name (freeWord .identifier), sign ":", part .type enclosedType],
    one (node .mappedTypeClause [
      part .name typeName, kw "in", part .type enclosedType,
      optSeq [kw "as", part .alias enclosedType]])]

/-- An index signature. -/
def indexSignature (ends : Bool) : Reader file (Piece file) :=
  node .indexSignature [
    optSeq [opt (alt [sign "-", sign "+"]), kw "readonly"],
    sign "[", indexBinder, sign "]",
    optSeq [alt [sign "-?", sign "+?", sign "?"]],
    part .type (typeAscription ends)]

/-- Marks after which a word names a member and does not modify one. -/
def memberClosing : List Char := [',', ';', ':', '?', '!', '(', '<', '=', '\x7d', ')']

/-- The members of an object type. -/
def objectTypeMember : Fragment file :=
  alt [
    one (node .constructSignature [
      opt (kw "abstract"), kw "new", optTypeParameters, part .parameters formalParameters,
      opt (part .type (typeAscription true))]),
    one (indexSignature true),
    one named,
    one (node .callSignature [signature true])]
where
  named : Reader file (Piece file) := do
    let before ← progress
    let modifiers ← star (modifier ["public", "private", "protected", "static", "override",
      "readonly", "async", "get", "set"] memberClosing)
    let generator ← opt (sign "*")
    let name ← part .name propertyName
    let mark ← opt (sign "?")
    let head := modifiers ++ generator ++ name ++ mark
    let method ← opt (signature true)
    if method.isEmpty then
      let type ← opt (part .type (typeAscription true))
      return Piece.spanning .propertySignature before.offset (head ++ type)
    else return Piece.spanning .methodSignature before.offset (head ++ method)

/-- The end of a member of an object type. -/
def memberEnd : Fragment file := alt [sign ",", statementEnd .plain]

/-- An object type under a kind. -/
def objectType (kind : Kind)
    (hkind : kind.isPlain = true := by exact Eq.refl true) : Reader file (Piece file) :=
  node kind [
    sign "\x7b", opt (alt [sign ",", sign ";"]),
    optSeq [sepBy1 memberEnd objectTypeMember, opt memberEnd],
    sign "\x7d"] hkind

/-- The head of a member of a tuple type that is named. -/
def tupleMember : Fragment file :=
  alt [
    one (node .optionalParameter [
      part .name identifier, sign "?", part .type (typeAscription false)]),
    one (node .requiredParameter [
      part .name (choice [node .restPattern [sign "...", one identifier], identifier]),
      part .type (typeAscription false)]),
    one (node .restType [sign "...", one enclosedType]),
    one (do
      let type ← enclosedType
      let mark ← opt (sign "?")
      if mark.isEmpty then return type
      else return Piece.spanning .optionalType type.start (type :: mark))]

/-- The name that a type query asks about. -/
def queried : Reader file (Piece file) := do
  let base ← choice [
    lexeme .importKeyword (wordThat (· == "import")),
    lexeme .this (wordThat (· == "this")), identifier]
  let whole ← extend step base
  let types ← opt (part .typeArguments typeArguments)
  if types.isEmpty then return whole
  else return Piece.spanning .instantiationExpression whole.start (whole.as .function :: types)
where
  step (base : Piece file) : Reader file (Piece file) :=
    choice [
      do
        let tail ← seq [one (choice [markUnless "." ".", mark "?."]), part .property (choice [
          anyWord .propertyIdentifier, lexeme .privatePropertyIdentifier privateNameLength?])]
        return Piece.spanning .memberExpression base.start (base.as .object :: tail),
      do
        let tail ← seq [sign "[", part .index (choice [string, number,
          anyWord .predefinedType]), sign "]"]
        return Piece.spanning .subscriptExpression base.start (base.as .object :: tail),
      do
        let tail ← part .arguments (node .arguments
          [sign "(", sparseList (one enclosedValue), sign ")"])
        return Piece.spanning .callExpression base.start (base.as .function :: tail)]

/-- The text of a template up to one of the characters at which it stops; a dollar sign may stand for
itself. -/
def templateText (stops : String) : Fragment file :=
  one (lexemeHere (.token "text") fun cs =>
    let n := (cs.takeWhile fun c => !stops.toList.contains c).length
    if n == 0 then
      match cs with
      | '$' :: c :: _ => if c == '\x7b' then none else some 1
      | _ => none
    else some n)

/-- A template literal type. -/
def templateLiteralType : Reader file (Piece file) :=
  node .templateLiteralType [sign "\x60", star (alt [templateText "\x60$", hole]),
    one (markHere "\x60")]
where
  hole : Fragment file :=
    one (node .templateType [one (markHere "$\x7b"), one enclosedType, sign "\x7d"])

/-- A type without operators in front or behind. -/
def typeOperand (ends : Bool) : Reader file (Piece file) := do
  match ← peekChar with
  | some '(' => choice [
      functionType,
      node .parenthesizedType [sign "(", one enclosedType, sign ")"]]
  | some '<' => functionType
  | some '[' => node .tupleType [sign "[", opt (commaList tupleMember), sign "]"]
  | some '\x7b' => objectType .objectType
  | some '\x60' => templateLiteralType
  | some '*' => node .existentialType [sign "*"]
  | some '?' => node .flowMaybeType [sign "?", one (enter (.type 3 ends))]
  | some '"' | some '\'' => node .literalType [one string]
  | some '-' | some '+' =>
      node .literalType [one (node .unaryExpression [alt [sign "-", sign "+"], one number])]
  | some c =>
      if c.isDigit || c == '.' then node .literalType [one number] else worded
  | none => refuse
where
  functionType : Reader file (Piece file) :=
    node .functionType [
      opt (part .typeParameters typeParameters), part .parameters formalParameters,
      sign "=>", part .returnType (resultType ends)]
  constructorType : Reader file (Piece file) :=
    node .constructorType [
      opt (kw "abstract"), kw "new", opt (part .typeParameters typeParameters),
      part .parameters formalParameters, sign "=>", part .type (enter (.type 0 ends))]
  word (kind : Kind) (text : String)
      (hkind : kind.isPlain = true := by exact Eq.refl true) : Reader file (Piece file) :=
    lexeme kind (wordThat (· == text)) hkind
  worded : Reader file (Piece file) := do
    match ← peekWord with
    | some "keyof" => choice [
        node .indexTypeQuery [kw "keyof", one (enter (.type 3 ends))], namedType]
    | some "readonly" => choice [
        node .readonlyType [kw "readonly", one (enter (.type 3 ends))], namedType]
    | some "unique" => choice [node .predefinedType [kw "unique", kw "symbol"], namedType]
    | some "infer" => choice [
        node .inferType [kw "infer", one typeName,
          optSeq [kw "extends", one (enter (.type 1 false)), do notAhead (mark "?"); pure []]],
        node .inferType [kw "infer", one typeName],
        namedType]
    | some "new" => constructorType
    | some "abstract" => choice [constructorType, namedType]
    | some "typeof" => node .typeQuery [kw "typeof", one queried]
    | some "import" => queried
    | some "this" => node .thisType [kw "this"]
    | some "null" => node .literalType [one (word .null "null")]
    | some "true" => node .literalType [one (word .true "true")]
    | some "false" => node .literalType [one (word .false "false")]
    | some "undefined" => node .literalType [one (word .undefined "undefined")]
    | some "const" => keyword "const"
    | some w =>
        if predefinedTypes.contains w then
          choice [
            do
              let n ← lexeme .predefinedType (wordThat predefinedTypes.contains)
              notAhead (markUnless "." ".")
              return n,
            namedType]
        else namedType
    | none => refuse

/-! ## Operators -/

/-- Unless a statement may end here. -/
def unlessEnded (ends : Bool) : Reader file Unit := do
  if ends then when? (!(← endInsertable .plain)) else pure ()

/-- A type with what follows it in brackets. -/
def postfixType (ends : Bool) : Reader file (Piece file) := do
  extend step (← typeOperand ends)
where
  step (base : Piece file) : Reader file (Piece file) := do
    unlessEnded ends
    choice [
      do
        let tail ← seq [sign "[", sign "]"]
        return Piece.spanning .arrayType base.start (base :: tail),
      do
        let tail ← seq [sign "[", one enclosedType, sign "]"]
        return Piece.spanning .lookupType base.start (base :: tail)]

/-- A type whose operators bind at least as tightly as the level. -/
def typeExpression (level : Nat) (ends : Bool) : Reader file (Piece file) :=
  match level with
  | 0 => do
      let left ← enter (.type 1 ends)
      choice [
        do
          unlessEnded ends
          let tail ← seq [
            kw "extends", part .right (enter (.type 1 false)), sign "?",
            part .consequence enclosedType, sign ":", part .alternative (enter (.type 0 ends))]
          return Piece.spanning .conditionalType left.start (left.as .left :: tail),
        pure left]
  | 1 => joined .unionType (by decide) (markUnless "|" "|") 2
  | 2 => joined .intersectionType (by decide) (markUnless "&" "&") 3
  | _ => postfixType ends
where
  joined (kind : Kind) (hkind : kind.isPlain = true) (operator : Reader file (Piece file))
      (next : Nat) : Reader file (Piece file) := do
    let lead ← opt (one operator)
    let first ← enter (.type next ends)
    let start :=
      if lead.isEmpty then first else Piece.spanning kind first.start (lead ++ [first]) hkind
    extend (fun left => do
        let tail ← seq [one operator, one (enter (.type next ends))]
        return Piece.spanning kind left.start (left :: tail) hkind)
      start

end WebMigration.Syntax.Grammar
