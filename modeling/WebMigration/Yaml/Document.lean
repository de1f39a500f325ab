import WebMigration.Json.Display
import WebMigration.Yaml.Implicit
import WebMigration.Yaml.Scalar

/-!
# Documents

Reading a configuration document: nested lists and tables, told by indentation or by brackets, with
names for values that occur again.  A text holds at most one document; an empty one is null.
-/

namespace WebMigration.Yaml

/-! ## Values -/

/-- What a node holds before its type is known. -/
inductive Content
  | scalar (text : String) (isPlain : Bool)
  | list (items : List Json)
  | table (entries : List (String × Json))
  /-- A value that was named before. -/
  | known (value : Json)

/-- The name and the type that stand before a node. -/
structure Properties where
  anchor : Option String := none
  type : Option String := none

/-- Whether nothing stands before a node. -/
def Properties.isEmpty (p : Properties) : Bool := p.anchor.isNone && p.type.isNone

/-- A node with what stands before it. -/
structure Node where
  properties : Properties
  content : Content

/-- The error for a text that is no document. -/
def unreadable : Fault := .of .unreadableDocument ""

/-- A scalar of a given type. -/
def typedScalar (type text : String) : Except Fault Json :=
  match type with
  | "!" => .ok (.string text)
  | "!!str" => .ok (.string text)
  | "!!null" => .ok .null
  | "!!bool" =>
      match truth? text with
      | some b => .ok (.bool b)
      | none => .error (.of .key (Text.lower text))
  | "!!int" =>
      match whole? text.toList with
      | some n => .ok (.int n)
      | none => .error (.value ("invalid literal for int() with base 10: " ++ Text.quoted text))
  | "!!float" =>
      match float? text.toList, whole? text.toList with
      | some x, _ => .ok (.float x)
      | none, some n => .ok (.float (.ofInt n))
      | none, none => .error (.value ("could not convert string to float: " ++ Text.quoted text))
  | _ => .error unreadable

/-- The value of a node. -/
def Node.value (n : Node) : Except Fault Json :=
  match n.content, n.properties.type with
  | .known v, _ => .ok v
  | .scalar text true, none => implicit text
  | .scalar text false, none => .ok (.string text)
  | .scalar text _, some type => typedScalar type text
  | .list items, type =>
      if [none, some "!", some "!!seq"].contains type then .ok (.list items) else .error unreadable
  | .table entries, type =>
      if [none, some "!", some "!!map"].contains type then .ok (.record (Json.distinct entries))
      else .error unreadable

/-- The name that a value is as a key; lists and tables are none. -/
def keyName : Json → Except Fault String
  | .list _ => .error unreadable
  | .record _ => .error unreadable
  | v => .ok v.display

/-- The entries of the tables that a merge names, those of the first table last. -/
def mergedEntries : Json → Except Fault (List (String × Json))
  | .record fields => .ok fields
  | .list items =>
      (items.reverse.mapM fun (v : Json) =>
        match v with
        | .record fields => Except.ok fields
        | _ => .error unreadable).map List.flatten
  | _ => .error unreadable

/-! ## Reading -/

/-- How far a text has been read, and the values named so far. -/
structure Reading where
  cursor : Cursor
  anchors : List (String × Json) := []

abbrev Reader := StateT Reading (Except Fault)

namespace Reader

/-- Fails. -/
def fail {α : Type} : Reader α := throw unreadable

def cursor : Reader Cursor := do return (← get).cursor

def goTo (c : Cursor) : Reader Unit := modify fun r => { r with cursor := c }

/-- Goes past some characters. -/
def skip (n : Nat) : Reader Unit := do goTo ((← cursor).skip n)

/-- Goes to the next token, and answers with its place. -/
def token : Reader Cursor := do
  let c := (← cursor).token
  goTo c
  return c

/-- Takes what a pure reader reads. -/
def take {α : Type} (read : Option (α × Cursor)) : Reader α :=
  match read with
  | some (a, c) => do
      goTo c
      return a
  | none => fail

def lift {α : Type} (e : Except Fault α) : Reader α :=
  match e with
  | .ok a => pure a
  | .error f => throw f

/-- The value of a node, which is remembered under its name. -/
def finish (n : Node) : Reader Json := do
  let v ← lift n.value
  match n.properties.anchor with
  | none => return v
  | some name =>
      if (← get).anchors.any (·.1 == name) then fail
      else
        modify fun r => { r with anchors := (name, v) :: r.anchors }
        return v

/-- A name after its mark. -/
def name : Reader String := do
  let c ← cursor
  let letters := c.next.rest.takeWhile fun x => x.isAlphanum || x == '-' || x == '_'
  let d := c.next.skip letters.length
  if letters.isEmpty || !(blankNext d.rest || "?:,]\x7d%@\x60".toList.contains (d.rest.head?.getD ' '))
  then fail
  else
    goTo d
    return String.ofList letters

/-- A value that was named before. -/
def aliased : Reader Node := do
  let n ← name
  match (← get).anchors.find? (·.1 == n) with
  | some entry => return ⟨{}, .known entry.2⟩
  | none => fail

/-- The characters of a type; one given in full is shortened. -/
def type : Reader String := do
  let c ← cursor
  let letters := c.rest.takeWhile (!isBlank ·)
  goTo (c.skip letters.length)
  let text := String.ofList letters
  if Text.startsWith "!<tag:yaml.org,2002:" text && Text.endsWith ">" text then
    return "!!" ++ Text.dropEnd 1 (Text.drop 20 text)
  else return text

/-- One more property of a node. -/
def property (p : Properties) : Reader Properties := do
  let c ← cursor
  match c.rest, p.anchor, p.type with
  | '&' :: _, none, _ => return { p with anchor := some (← name) }
  | '!' :: _, _, none => return { p with type := some (← type) }
  | _, _, _ => fail

/-- Whether a property comes next. -/
def atProperty (c : Cursor) : Bool := c.rest.head? == some '&' || c.rest.head? == some '!'

/-- A scalar that comes next, other than a block. -/
def scalar (inFlow : Bool) (indent : Int) : Reader Content := do
  let c ← cursor
  match c.rest.head? with
  | some x =>
      if x == '"' || x == '\'' then return .scalar (← take (quoted? c)) false
      else if startsPlain inFlow c.rest then
        let (text, d) := plain inFlow indent c
        goTo d
        return .scalar text true
      else fail
  | none => fail

/-- Whether a node read between two places can be a key: on one line, and not too long. -/
def canBeKey (start stop : Cursor) : Bool := start.line == stop.line && start.distance stop ≤ 1024

/-! ## Brackets -/

/-- Reads properties between brackets. -/
def flowProperties : Nat → Properties → Reader Properties
  | 0, p => return p
  | fuel + 1, p => do
      let c ← token
      if atProperty c then flowProperties fuel (← property p) else return p

/-- Whether an item between brackets is empty here. -/
def endsItem (c : Cursor) : Bool := ":,]\x7d".toList.contains (c.rest.head?.getD ' ')

/-- The entries of a table with one more, where a merge puts its entries first. -/
def withEntry (key : Node) (value : Json) (entries : List (String × Json)) :
    Reader (List (String × Json)) :=
  match key.content, key.properties.type with
  | .scalar "<<" true, none => do return (← lift (mergedEntries value)) ++ entries
  | .scalar "=" true, none => return entries ++ [("=", value)]
  | _, _ => do return entries ++ [(← lift (keyName (← finish key)), value)]

/-- The empty node. -/
def nothing : Node := ⟨{}, .scalar "" true⟩

mutual

/-- A node between brackets. -/
def flowNode : Nat → Reader Node
  | 0 => fail
  | fuel + 1 => do
      let p ← flowProperties 3 {}
      let c ← cursor
      if c.atDocumentMark then fail
      match c.rest.head? with
      | some '[' =>
          skip 1
          return ⟨p, .list (← flowItems fuel)⟩
      | some '\x7b' =>
          skip 1
          return ⟨p, .table (← flowEntries fuel [])⟩
      | some '*' => if p.isEmpty then aliased else fail
      | _ =>
          if endsItem c && !p.isEmpty then return ⟨p, .scalar "" true⟩
          else return ⟨p, ← scalar true 0⟩

/-- The value after a colon between brackets. -/
def flowValue : Nat → Reader Json
  | 0 => fail
  | fuel + 1 => do
      let c ← token
      if endsItem c && c.rest.head? != some ':' then return .null
      else finish (← flowNode fuel)

/-- A key that is marked as one, and its value. -/
def flowMarked : Nat → Reader (Node × Json)
  | 0 => fail
  | fuel + 1 => do
      skip 1
      let c ← token
      let key ← if endsItem c then pure nothing else flowNode fuel
      let d ← token
      if d.rest.head? == some ':' then
        skip 1
        return (key, ← flowValue fuel)
      else return (key, .null)

/-- The items of a list after its bracket. -/
def flowItems : Nat → Reader (List Json)
  | 0 => fail
  | fuel + 1 => do
      let c ← token
      if c.rest.head? == some ']' then
        skip 1
        return []
      else
        let item ←
          if c.rest.head? == some '?' then
            let (key, value) ← flowMarked fuel
            pure (.record (← withEntry key value []))
          else
            let node ← flowNode fuel
            let d ← token
            if d.rest.head? == some ':' then
              if canBeKey c d then
                skip 1
                pure (.record (← withEntry node (← flowValue fuel) []))
              else fail
            else finish node
        let e ← token
        match e.rest.head? with
        | some ',' =>
            skip 1
            return item :: (← flowItems fuel)
        | some ']' =>
            skip 1
            return [item]
        | _ => fail

/-- The entries of a table after its bracket. -/
def flowEntries : Nat → List (String × Json) → Reader (List (String × Json))
  | 0, _ => fail
  | fuel + 1, entries => do
      let c ← token
      if c.rest.head? == some '\x7d' then
        skip 1
        return entries
      else
        let (key, value) ←
          if c.rest.head? == some '?' then flowMarked fuel
          else
            let node ← flowNode fuel
            let d ← token
            if d.rest.head? == some ':' then
              if canBeKey c d then
                skip 1
                pure (node, ← flowValue fuel)
              else fail
            else pure (node, .null)
        let more ← withEntry key value entries
        let e ← token
        match e.rest.head? with
        | some ',' =>
            skip 1
            flowEntries fuel more
        | some '\x7d' =>
            skip 1
            return more
        | _ => fail

end

/-! ## Indentation -/

/-- Both properties of a node, if none is given twice. -/
def joined (outer inner : Properties) : Reader Properties :=
  if (outer.anchor.isSome && inner.anchor.isSome) || (outer.type.isSome && inner.type.isSome) then fail
  else return ⟨outer.anchor <|> inner.anchor, outer.type <|> inner.type⟩

/-- Whether an item of a list comes next. -/
def atItem (c : Cursor) : Bool := c.atMarker '-' && !c.atDocumentMark

/-- Whether nothing more comes, or the document ends here. -/
def atStop (c : Cursor) : Bool := c.atEnd || c.atDocumentMark

/-- Goes past the colon after a key, if there is one on its line; a colon after what cannot be a key
is an error. -/
def colon (keys : Bool) (start : Cursor) : Reader Bool := do
  let d := (← cursor).skipSpaces
  if d.atMarker ':' && start.line == d.line then
    if keys && canBeKey start d then
      goTo d.next
      return true
    else fail
  else return false

/-- A node that stands on one line in surroundings at `indent`, with its properties. -/
def inlineNode (indent : Int) (p : Properties) (fuel : Nat) : Reader Node := do
  let c ← cursor
  match c.rest.head? with
  | some '*' => if p.isEmpty then aliased else fail
  | some '[' => do return { ← flowNode fuel with properties := p }
  | some '\x7b' => do return { ← flowNode fuel with properties := p }
  | _ => return ⟨p, ← scalar false indent⟩

/-- The properties before a key on one line. -/
def keyProperties : Nat → Properties → Reader Properties
  | 0, p => return p
  | fuel + 1, p => do
      let c ← cursor
      if atProperty c then
        let q ← property p
        goTo (← cursor).skipSpaces
        keyProperties fuel q
      else return p

mutual

/-- A node in surroundings at `indent`.  `keys` tells whether a key may stand on the same line, and
`flush` whether a list may stand as deep as its surroundings. -/
def blockNode (indent : Int) (keys flush : Bool) (p : Properties) : Nat → Reader Node
  | 0 => fail
  | fuel + 1 => do
      let start ← cursor
      let c ← token
      if flush && (c.column : Int) == indent && atItem c && c.line != start.line then
        return ⟨p, .list (← blockItems c.column true fuel)⟩
      else if atStop c || (c.column : Int) ≤ indent then return ⟨p, .scalar "" true⟩
      else blockContent indent (keys || c.line != start.line) flush p {} c fuel

/-- A node that starts here; `outer` stands on lines before, and `inner` from `start` on. -/
def blockContent (indent : Int) (keys flush : Bool) (outer inner : Properties) (start : Cursor) :
    Nat → Reader Node
  | 0 => fail
  | fuel + 1 => do
      let c ← cursor
      let fresh := keys && inner.isEmpty
      if c.atMarker '-' then
        if fresh then return ⟨outer, .list (← blockItems c.column false fuel)⟩ else fail
      else if c.atMarker '?' then
        if fresh then return ⟨outer, .table (← blockEntries c.column [] fuel)⟩ else fail
      else if atProperty c then
        let q ← property inner
        let d := (← cursor).token
        if d.line == c.line && !d.atEnd then
          goTo d
          blockContent indent keys flush outer q start fuel
        else blockNode indent true flush (← joined outer q) fuel
      else if c.rest.head? == some '|' || c.rest.head? == some '>' then
        let text ← take (block? indent c)
        return ⟨← joined outer inner, .scalar text false⟩
      else
        let node ← inlineNode indent inner fuel
        if ← colon keys start then
          let value ← finish (← blockNode start.column false true {} fuel)
          let entries ← withEntry node value []
          return ⟨outer, .table (← blockEntries start.column entries fuel)⟩
        else
          match node.content with
          | .known _ => if outer.isEmpty then return node else fail
          | content => return ⟨← joined outer inner, content⟩

/-- The items of a list whose marks stand in a column; `flush` tells whether a table around it stands
in the same one. -/
def blockItems (column : Nat) (flush : Bool) : Nat → Reader (List Json)
  | 0 => fail
  | fuel + 1 => do
      skip 1
      let item ← finish (← blockNode column true false {} fuel)
      let c ← token
      if atStop c || c.column < column then return [item]
      else if c.column == column && atItem c then return item :: (← blockItems column flush fuel)
      else if c.column == column && flush then return [item]
      else fail

/-- The further entries of a table whose keys stand in a column. -/
def blockEntries (column : Nat) (entries : List (String × Json)) :
    Nat → Reader (List (String × Json))
  | 0 => fail
  | fuel + 1 => do
      let c ← token
      if atStop c || c.column < column then return entries
      else if column < c.column then fail
      else if c.atMarker '?' then
        skip 1
        let key ← blockNode column true true {} fuel
        let d ← token
        if d.column == column && d.atMarker ':' then
          skip 1
          let value ← finish (← blockNode column true true {} fuel)
          blockEntries column (← withEntry key value entries) fuel
        else blockEntries column (← withEntry key .null entries) fuel
      else
        let key ← inlineNode column (← keyProperties 3 {}) fuel
        if ← colon true c then
          let value ← finish (← blockNode column false true {} fuel)
          blockEntries column (← withEntry key value entries) fuel
        else fail

end

/-! ## Documents -/

/-- Goes past the directives at the start of a text, and tells whether there were any. -/
def directives : Nat → Bool → Reader Bool
  | 0, found => return found
  | fuel + 1, found => do
      let c ← token
      if c.column == 0 && c.rest.head? == some '%' then
        goTo c.lineEnd
        directives fuel true
      else return found

/-- Goes past marks that end a document; nothing may follow them. -/
def ending : Nat → Reader Unit
  | 0 => fail
  | fuel + 1 => do
      let c ← token
      if c.atEnd then return
      else if c.atDocumentMark && c.rest.head? == some '.' then
        skip 3
        ending fuel
      else fail

/-- The only document of a text. -/
def document (fuel : Nat) : Reader Json := do
  let found ← directives fuel false
  let c ← token
  let marked := c.atDocumentMark && c.rest.head? == some '-'
  if marked then skip 3
  else if found then fail
  let v ← finish (← blockNode (-1) (!marked) false {} fuel)
  ending fuel
  return v

end Reader

/-- Reads a document. -/
def read (text : String) : Except Fault Json :=
  let cs := text.toList
  if cs.all isPrintable then
    let body := if cs.head? == some '\ufeff' then cs.drop 1 else cs
    ((Reader.document (2 * cs.length + 8)).run ⟨⟨body, 0, 0⟩, []⟩).map (·.1)
  else .error unreadable

end WebMigration.Yaml
