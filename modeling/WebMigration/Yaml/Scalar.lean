import WebMigration.Yaml.Cursor
import WebMigration.Text.Basic

/-!
# Written scalars

The text of a scalar in each of its five forms: plain, in single or double quotes, and as a literal or
folded block.  Line breaks inside all forms but the literal one are folded: one becomes a space, and
of several all but the first stay.
-/

namespace WebMigration.Yaml

/-! ## Folding -/

/-- What a line break and the empty lines after it become. -/
def folded (first : Char) (more : List Char) : List Char :=
  if first != '\n' then first :: more else if more.isEmpty then [' '] else more

/-! ## Plain scalars -/

/-- Whether a plain scalar can start with some characters. -/
def startsPlain (inFlow : Bool) : List Char → Bool
  | [] => false
  | c :: r =>
      if isBlank c then false
      else if "-?:,[]\x7b\x7d#&*!|>'\"%@\x60".toList.contains c then
        !blankNext r && (c == '-' || (!inFlow && (c == '?' || c == ':')))
      else true

/-- Whether a character separates items inside brackets. -/
def isFlowMark (c : Char) : Bool := ",[]\x7b\x7d".toList.contains c

/-- The length of a run of a plain scalar up to a blank or what ends the scalar. -/
def plainRun (inFlow : Bool) : List Char → Nat
  | [] => 0
  | c :: r =>
      let endsAtColon := c == ':' && (blankNext r || (inFlow && (r.head?.map isFlowMark).getD false))
      if isBlank c || endsAtColon || (inFlow && (isFlowMark c || c == '?')) then 0
      else plainRun inFlow r + 1

/-- The empty lines after the first line break of a plain scalar; none if a document mark follows. -/
def plainBreaks : Nat → Cursor → List Char → Option (List Char) × Cursor
  | 0, c, breaks => (some breaks, c)
  | fuel + 1, c, breaks =>
      match c.rest with
      | ' ' :: _ => plainBreaks fuel c.next breaks
      | _ =>
          match c.lineBreak? with
          | some (b, d) =>
              if d.atDocumentMark then (none, d) else plainBreaks fuel d (breaks ++ [b])
          | none => (some breaks, c)

/-- What stands between two runs of a plain scalar, if it may go on. -/
def plainGap (c : Cursor) : List Char × Cursor :=
  let d := c.skipSpaces
  match d.lineBreak? with
  | none => (c.rest.takeWhile (· == ' '), d)
  | some (b, e) =>
      if e.atDocumentMark then ([], e)
      else
        match plainBreaks (e.rest.length + 1) e [] with
        | (some breaks, f) => (folded b breaks, f)
        | (none, f) => ([], f)

/-- A plain scalar from a run on; lines that do not stand deeper than `indent` end it. -/
def plainUpTo (inFlow : Bool) (indent : Int) : Nat → Cursor → List Char → List Char × Cursor
  | 0, c, _ => ([], c)
  | fuel + 1, c, before =>
      let n := if c.rest.head? == some '#' then 0 else plainRun inFlow c.rest
      if n == 0 then ([], c)
      else
        let (between, d) := plainGap (c.skip n)
        let run := before ++ c.rest.take n
        if between.isEmpty || d.rest.head? == some '#' || (!inFlow && (d.column : Int) ≤ indent) then
          (run, d)
        else
          let (more, e) := plainUpTo inFlow indent fuel d between
          (run ++ more, e)

/-- A plain scalar. -/
def plain (inFlow : Bool) (indent : Int) (c : Cursor) : String × Cursor :=
  let (text, d) := plainUpTo inFlow indent (c.rest.length + 1) c []
  (String.ofList text, d)

/-! ## Quoted scalars -/

/-- The characters after a backslash that stand for one character each. -/
def escapes : List (Char × Char) :=
  [('0', '\x00'), ('a', '\x07'), ('b', '\x08'), ('t', '\t'), ('\t', '\t'), ('n', '\n'), ('v', '\x0b'),
    ('f', '\x0c'), ('r', '\r'), ('e', '\x1b'), (' ', ' '), ('"', '"'), ('\\', '\\'), ('/', '/'),
    ('N', '\u0085'), ('_', '\u00a0'), ('L', '\u2028'), ('P', '\u2029')]

/-- The number of hexadecimal digits after a backslash and a letter. -/
def escapeLength? (c : Char) : Option Nat :=
  if c == 'x' then some 2 else if c == 'u' then some 4 else if c == 'U' then some 8 else none

def hexValue? (c : Char) : Option Nat :=
  if '0' ≤ c && c ≤ '9' then some (c.toNat - 48)
  else if 'a' ≤ c && c ≤ 'f' then some (c.toNat - 87)
  else if 'A' ≤ c && c ≤ 'F' then some (c.toNat - 55)
  else none

/-- The number that some hexadecimal digits stand for. -/
def hexNumber? (cs : List Char) : Option Nat :=
  cs.foldl (fun n c => n.bind fun n => (hexValue? c).map fun d => 16 * n + d) (some 0)

/-- The empty lines inside quotes; a document mark is an error. -/
def quotedBreaks : Nat → Cursor → List Char → Option (List Char × Cursor)
  | 0, c, breaks => some (breaks, c)
  | fuel + 1, c, breaks =>
      if c.atDocumentMark then none
      else
        let d := c.skipAll fun x => x == ' ' || x == '\t'
        match d.lineBreak? with
        | some (b, e) => quotedBreaks fuel e (breaks ++ [b])
        | none => some (breaks, d)

/-- What a line break inside quotes and the empty lines after it become. -/
def quotedFold (b : Char) (c : Cursor) : Option (List Char × Cursor) :=
  (quotedBreaks (c.rest.length + 1) c []).map fun (breaks, d) => (folded b breaks, d)

/-- What an escape after a backslash stands for. -/
def escape? (c : Cursor) : Option (List Char × Cursor) :=
  match c.rest with
  | [] => none
  | x :: r =>
      match escapes.find? (·.1 == x), escapeLength? x, c.lineBreak? with
      | some e, _, _ => some ([e.2], c.next)
      | none, some n, _ =>
          if r.length < n then none
          else (hexNumber? (r.take n)).map fun code => ([Char.ofNat code], c.skip (n + 1))
      | none, none, some (_, d) => quotedBreaks (d.rest.length + 1) d []
      | none, none, none => none

/-- The rest of a scalar in double quotes. -/
def doubleQuoted : Nat → Cursor → Option (List Char × Cursor)
  | 0, _ => none
  | fuel + 1, c =>
      let goOn := fun (part : List Char × Cursor) =>
        (doubleQuoted fuel part.2).map fun (more, e) => (part.1 ++ more, e)
      match c.rest with
      | [] => none
      | '"' :: _ => some ([], c.next)
      | '\\' :: _ => (escape? c.next).bind goOn
      | x :: _ =>
          let d := c.skipAll fun x => x == ' ' || x == '\t'
          match d.lineBreak? with
          | some (b, e) => (quotedFold b e).bind goOn
          | none => goOn ([x], c.next)

/-- The rest of a scalar in single quotes, in which two quotes stand for one. -/
def singleQuoted : Nat → Cursor → Option (List Char × Cursor)
  | 0, _ => none
  | fuel + 1, c =>
      let goOn := fun (part : List Char × Cursor) =>
        (singleQuoted fuel part.2).map fun (more, e) => (part.1 ++ more, e)
      match c.rest with
      | [] => none
      | '\'' :: '\'' :: _ => goOn (['\''], c.next.next)
      | '\'' :: _ => some ([], c.next)
      | x :: _ =>
          let d := c.skipAll fun x => x == ' ' || x == '\t'
          match d.lineBreak? with
          | some (b, e) => (quotedFold b e).bind goOn
          | none => goOn ([x], c.next)

/-- A scalar in quotes, from its opening quote on. -/
def quoted? (c : Cursor) : Option (String × Cursor) :=
  let body := c.next
  let read := match c.rest with
    | '"' :: _ => doubleQuoted (body.rest.length + 1) body
    | _ => singleQuoted (body.rest.length + 1) body
  read.map fun (text, d) => (String.ofList text, d)

/-! ## Block scalars -/

/-- What becomes of the line breaks at the end of a block. -/
inductive Chomp
  | strip | clip | keep
  deriving DecidableEq, Repr

/-- How a block is to be read. -/
structure BlockHeader where
  chomp : Chomp := .clip
  /-- How much deeper than its surroundings the block stands, if that is given. -/
  deeper : Option Nat := none

/-- Reads the indicators of a block, each at most once. -/
def blockHeader? : List Char → Option (BlockHeader × Nat)
  | c :: d :: _ =>
      match chomp? c, digit? c, chomp? d, digit? d with
      | some x, _, _, some n => if n == 0 then none else some (⟨x, some n⟩, 2)
      | _, some n, some x, _ => if n == 0 then none else some (⟨x, some n⟩, 2)
      | some x, _, _, none => some (⟨x, none⟩, 1)
      | none, some n, none, _ => if n == 0 then none else some (⟨.clip, some n⟩, 1)
      | none, none, _, _ => some ({}, 0)
  | [c] =>
      match chomp? c, digit? c with
      | some x, _ => some (⟨x, none⟩, 1)
      | none, some n => if n == 0 then none else some (⟨.clip, some n⟩, 1)
      | none, none => some ({}, 0)
  | [] => some ({}, 0)
where
  chomp? (c : Char) : Option Chomp :=
    if c == '-' then some .strip else if c == '+' then some .keep else none
  digit? (c : Char) : Option Nat := if c.isDigit then some (c.toNat - 48) else none

/-- The place after the rest of the header line, which may hold a comment. -/
def afterHeader? (c : Cursor) : Option Cursor :=
  let d := c.skipSpaces
  let e := if d.rest.head? == some '#' then d.lineEnd else d
  if e.atEnd then some e else e.lineBreak?.map (·.2)

/-- The empty lines at the start of a block, and the column of its deepest space. -/
def leadingLines : Nat → Cursor → List Char → Nat → List Char × Nat × Cursor
  | 0, c, breaks, deepest => (breaks, deepest, c)
  | fuel + 1, c, breaks, deepest =>
      match c.rest with
      | ' ' :: _ => leadingLines fuel c.next breaks (max deepest (c.column + 1))
      | _ =>
          match c.lineBreak? with
          | some (b, d) => leadingLines fuel d (breaks ++ [b]) deepest
          | none => (breaks, deepest, c)

/-- The place after at most as many spaces as lead to a column. -/
def indentTo (column : Nat) (c : Cursor) : Cursor :=
  c.skip (min (column - c.column) (c.rest.takeWhile (· == ' ')).length)

/-- The empty lines between two lines of a block. -/
def blockBreaks (column : Nat) : Nat → Cursor → List Char → List Char × Cursor
  | 0, c, breaks => (breaks, c)
  | fuel + 1, c, breaks =>
      let d := indentTo column c
      match d.lineBreak? with
      | some (b, e) => blockBreaks column fuel e (breaks ++ [b])
      | none => (breaks, d)

/-- Whether a line of a block starts with a blank. -/
def startsBlank (c : Cursor) : Bool := (c.rest.head?.map fun x => x == ' ' || x == '\t').getD false

/-- The lines of a block from one line on, with the empty lines before it, and the line break and the
empty lines at its end. -/
def blockLines (fold : Bool) (column : Nat) : Nat → Cursor → List Char →
    List Char × List Char × List Char × Cursor
  | 0, c, breaks => ([], [], breaks, c)
  | fuel + 1, c, breaks =>
      if c.column != column || c.atEnd then ([], [], breaks, c)
      else
        let line := c.rest.takeWhile (!isBreak ·)
        let ended := c.lineEnd
        let (final, after) := match ended.lineBreak? with
          | some (b, d) => ([b], d)
          | none => ([], ended)
        let (nextBreaks, d) := blockBreaks column (after.rest.length + 1) after []
        if d.column == column && !d.atEnd then
          let joint :=
            if fold && final == ['\n'] && !startsBlank c && !startsBlank d then
              if nextBreaks.isEmpty then [' '] else []
            else final
          let (more, lastBreak, tail, e) := blockLines fold column fuel d nextBreaks
          (breaks ++ line ++ joint ++ more, lastBreak, tail, e)
        else (breaks ++ line, final, nextBreaks, d)

/-- What a block ends with. -/
def chomped (chomp : Chomp) (lastBreak tail : List Char) : List Char :=
  match chomp with
  | .strip => []
  | .clip => lastBreak
  | .keep => lastBreak ++ tail

/-- A block, from its indicator on, in surroundings that stand at `indent`. -/
def block? (indent : Int) (c : Cursor) : Option (String × Cursor) := do
  let fold := c.rest.head? == some '>'
  let (header, n) ← blockHeader? c.next.rest
  let body ← afterHeader? (c.next.skip n)
  if !blankNext (c.next.skip n).rest then none
  let least := max 1 (indent + 1).toNat
  let size := body.rest.length + 1
  let (breaks, column, start) := match header.deeper with
    | some n =>
        let column := least + n - 1
        let (breaks, start) := blockBreaks column size body []
        (breaks, column, start)
    | none =>
        let (breaks, deepest, start) := leadingLines size body [] 0
        (breaks, max least deepest, start)
  let (text, lastBreak, tail, d) := blockLines fold column size start breaks
  return (String.ofList (text ++ chomped header.chomp lastBreak tail), d)

end WebMigration.Yaml
