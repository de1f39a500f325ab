import WebMigration.Text.Basic

/-!
# Text patterns

Regular expressions with captures, as a type, a reader of their usual spelling and a matcher.  The
matcher tries alternatives from left to right and repeats as often as it can, or as rarely as it can,
before it goes back; the first way that succeeds counts.
-/

namespace WebMigration.Text

/-- A regular expression. -/
inductive Pattern
  /-- Nothing at all. -/
  | empty
  /-- One character that passes a test. -/
  | one (test : Char → Bool)
  /-- A place between a character of a word and another one, or a place that is none such. -/
  | wordEdge (present : Bool)
  /-- The start of the text. -/
  | textStart
  /-- The end of the text, or the line end that ends it. -/
  | textEnd
  /-- The start of a line. -/
  | lineStart
  /-- The end of a line. -/
  | lineEnd
  | both (first second : Pattern)
  | either (first second : Pattern)
  /-- Any number of times, as often or as rarely as possible. -/
  | many (greedy : Bool) (body : Pattern)
  /-- What matches is kept. -/
  | capture (body : Pattern)

namespace Pattern

/-! ## Building patterns -/

/-- The characters of a text one after the other. -/
def literal (s : String) : Pattern :=
  s.toList.foldr (fun c p => both (one (· == c)) p) empty

/-- Patterns one after the other. -/
def all (ps : List Pattern) : Pattern := ps.foldr both empty

/-- The pattern once or not at all. -/
def optional (greedy : Bool) (p : Pattern) : Pattern :=
  if greedy then either p empty else either empty p

/-- The pattern at least once. -/
def some (greedy : Bool) (p : Pattern) : Pattern := both p (many greedy p)

/-- The pattern from `least` up to `most` times. -/
def times (greedy : Bool) (p : Pattern) (least : Nat) (most : Option Nat) : Pattern :=
  let rest := match most with
    | Option.none => many greedy p
    | Option.some m => (List.replicate (m - least) p).foldr (fun q r => optional greedy (both q r)) empty
  (List.replicate least p).foldr both rest

/-! ## Matching -/

/-- A place in a text with what has been kept on the way to it, latest first. -/
structure Cursor where
  position : Nat
  before : Option Char
  rest : List Char
  kept : List (List Char)

/-- The place at the start of a text. -/
def Cursor.start (cs : List Char) : Cursor := ⟨0, none, cs, []⟩

/-- Whether the place lies on the edge of a word. -/
def Cursor.isWordEdge (c : Cursor) : Bool :=
  (c.before.map isWord).getD false != (c.rest.head?.map isWord).getD false

/-- Repeats a step up to `fuel` times before it goes on; a step that consumes nothing ends the
repetition. -/
def repeated {α : Type} (greedy : Bool) (step : (Cursor → Option α) → Cursor → Option α)
    (next : Cursor → Option α) : Nat → Cursor → Option α
  | 0, c => next c
  | fuel + 1, c =>
      let again := fun (_ : Unit) =>
        step (fun d => if c.position < d.position then repeated greedy step next fuel d else none) c
      if greedy then
        match again () with
        | Option.some a => Option.some a
        | none => next c
      else
        match next c with
        | Option.some a => Option.some a
        | none => again ()

/-- Matches at a place and goes on with `next` at each place where a match can end. -/
def run {α : Type} : Pattern → (Cursor → Option α) → Cursor → Option α
  | empty, next, c => next c
  | one test, next, c =>
      match c.rest with
      | x :: r => if test x then next { c with position := c.position + 1, before := x, rest := r } else none
      | [] => none
  | wordEdge present, next, c => if c.isWordEdge == present then next c else none
  | textStart, next, c => if c.before.isNone then next c else none
  | textEnd, next, c => if c.rest.isEmpty || c.rest == ['\n'] then next c else none
  | lineStart, next, c => if c.before.isNone || c.before == '\n' then next c else none
  | lineEnd, next, c => if c.rest.isEmpty || c.rest.head? == '\n' then next c else none
  | both p q, next, c => p.run (q.run next) c
  | either p q, next, c =>
      match p.run next c with
      | Option.some a => Option.some a
      | none => q.run next c
  | many greedy p, next, c => repeated greedy p.run next c.rest.length c
  | capture p, next, c =>
      p.run (fun d => next { d with kept := c.rest.take (d.position - c.position) :: d.kept }) c

/-- The end of the match at a place. -/
def matchAt? (p : Pattern) (c : Cursor) : Option Cursor := p.run Option.some { c with kept := [] }

/-- The matches from a place on, each with its start and its end, none overlapping another. -/
def matchesFrom (p : Pattern) : Nat → Cursor → List (Nat × Cursor)
  | 0, _ => []
  | fuel + 1, c =>
      match p.matchAt? c with
      | Option.some d =>
          (c.position, d) ::
            (if c.position < d.position then p.matchesFrom fuel d
            else match c.rest with
              | x :: r => p.matchesFrom fuel ⟨c.position + 1, x, r, []⟩
              | [] => [])
      | none =>
          match c.rest with
          | x :: r => p.matchesFrom fuel ⟨c.position + 1, x, r, []⟩
          | [] => []

/-- All matches in a text. -/
def allMatches (p : Pattern) (s : String) : List (Nat × Cursor) :=
  p.matchesFrom (2 * s.length + 2) (Cursor.start s.toList)

/-- The number of matches in a text. -/
def count (p : Pattern) (s : String) : Nat := (p.allMatches s).length

/-- Whether a pattern matches somewhere in a text. -/
def occursIn (p : Pattern) (s : String) : Bool := !(p.allMatches s).isEmpty

/-- What the first capture of each match keeps. -/
def captures (p : Pattern) (s : String) : List String :=
  (p.allMatches s).map fun m => String.ofList (m.2.kept.getLast?.getD [])

/-- A text with something else in place of the ranges between a start and the end of the match that
starts there; `offset` is the place of the text in the whole. -/
def replaceRanges (new : List Char) (offset : Nat) (cs : List Char) :
    List (Nat × Cursor) → List Char
  | [] => cs
  | (start, stop) :: rest =>
      cs.take (start - offset) ++ new ++
        replaceRanges new stop.position (cs.drop (stop.position - offset)) rest

/-- The text with something else in place of all matches. -/
def replaceAll (p : Pattern) (new s : String) : String :=
  String.ofList (replaceRanges new.toList 0 s.toList (p.allMatches s))

/-- The text without all matches. -/
def removeAll (p : Pattern) (s : String) : String := p.replaceAll "" s

/-! ## Reading patterns -/

/-- The class of characters that a letter after a backslash stands for. -/
def escapedClass? : Char → Option (Char → Bool)
  | 'w' => Option.some isWord
  | 'W' => Option.some fun c => !isWord c
  | 'd' => Option.some fun c => (digitValue? c).isSome
  | 'D' => Option.some fun c => (digitValue? c).isNone
  | 's' => Option.some isSpace
  | 'S' => Option.some fun c => !isSpace c
  | _ => none

/-- The character that a character after a backslash stands for. -/
def escapedChar : Char → Char
  | 'n' => '\n'
  | 't' => '\t'
  | 'r' => '\r'
  | 'f' => '\x0c'
  | 'v' => '\x0b'
  | c => c

/-- The members of a class in brackets, up to its closing bracket. -/
def readClass : Nat → (Char → Bool) → List Char → Option ((Char → Bool) × List Char)
  | 0, _, _ => none
  | fuel + 1, test, cs =>
      match cs with
      | ']' :: r => Option.some (test, r)
      | '\\' :: e :: r =>
          match escapedClass? e with
          | Option.some more => readClass fuel (fun c => test c || more c) r
          | none => readClass fuel (fun c => test c || c == escapedChar e) r
      | a :: '-' :: b :: r =>
          if b == ']' then readClass fuel (fun c => test c || c == a || c == '-') (b :: r)
          else readClass fuel (fun c => test c || (a ≤ c && c ≤ b)) r
      | a :: r => readClass fuel (fun c => test c || c == a) r
      | [] => none

/-- A count of repetitions in braces. -/
def readCount (cs : List Char) : Option ((Nat × Option Nat) × List Char) :=
  let number (cs : List Char) : List Char × List Char := cs.span (·.isDigit)
  let value (ds : List Char) : Nat := ds.foldl (fun n d => 10 * n + (d.toNat - 48)) 0
  let (least, r) := number cs
  match r with
  | '}' :: r => if least.isEmpty then none else Option.some ((value least, Option.some (value least)), r)
  | ',' :: r =>
      let (most, r) := number r
      match r with
      | '}' :: r =>
          Option.some ((value least, if most.isEmpty then none else Option.some (value most)), r)
      | _ => none
  | _ => none

/-- Applies the repetition marks that follow an item. -/
def readRepeats (p : Pattern) (cs : List Char) : Pattern × List Char :=
  let manner (r : List Char) : Bool × List Char :=
    match r with
    | '?' :: r => (false, r)
    | r => (true, r)
  match cs with
  | '*' :: r => let (greedy, r) := manner r; (many greedy p, r)
  | '+' :: r => let (greedy, r) := manner r; (some greedy p, r)
  | '?' :: r => let (greedy, r) := manner r; (optional greedy p, r)
  | '{' :: r =>
      match readCount r with
      | Option.some ((least, most), r) => let (greedy, r) := manner r; (times greedy p least most, r)
      | none => (p, '{' :: r)
  | r => (p, r)

mutual

/-- Reads alternatives up to the end or a closing parenthesis. -/
def readChoice : Nat → List Char → Option (Pattern × List Char)
  | 0, _ => none
  | fuel + 1, cs =>
      match readSequence fuel cs with
      | Option.some (p, '|' :: r) =>
          match readChoice fuel r with
          | Option.some (q, r) => Option.some (either p q, r)
          | none => none
      | found => found

/-- Reads items one after the other. -/
def readSequence : Nat → List Char → Option (Pattern × List Char)
  | 0, _ => none
  | fuel + 1, cs =>
      match cs with
      | [] => Option.some (empty, [])
      | '|' :: r => Option.some (empty, '|' :: r)
      | ')' :: r => Option.some (empty, ')' :: r)
      | cs =>
          match readItem fuel cs with
          | Option.some (p, r) =>
              let (p, r) := readRepeats p r
              match readSequence fuel r with
              | Option.some (q, r) => Option.some (both p q, r)
              | none => none
          | none => none

/-- Reads one item. -/
def readItem : Nat → List Char → Option (Pattern × List Char)
  | 0, _ => none
  | fuel + 1, cs =>
      match cs with
      | '\\' :: 'b' :: r => Option.some (wordEdge true, r)
      | '\\' :: 'B' :: r => Option.some (wordEdge false, r)
      | '\\' :: 'A' :: r => Option.some (textStart, r)
      | '\\' :: e :: r => Option.some (one ((escapedClass? e).getD (· == escapedChar e)), r)
      | '^' :: r => Option.some (textStart, r)
      | '$' :: r => Option.some (textEnd, r)
      | '.' :: r => Option.some (one (· != '\n'), r)
      | '[' :: '^' :: ']' :: r =>
          (readClass fuel (· == ']') r).map fun (test, r) => (one (fun c => !test c), r)
      | '[' :: '^' :: r =>
          (readClass fuel (fun _ => false) r).map fun (test, r) => (one (fun c => !test c), r)
      | '[' :: ']' :: r => (readClass fuel (· == ']') r).map fun (test, r) => (one test, r)
      | '[' :: r => (readClass fuel (fun _ => false) r).map fun (test, r) => (one test, r)
      | '(' :: '?' :: ':' :: r =>
          match readChoice fuel r with
          | Option.some (p, ')' :: r) => Option.some (p, r)
          | _ => none
      | '(' :: '?' :: _ => none
      | '(' :: r =>
          match readChoice fuel r with
          | Option.some (p, ')' :: r) => Option.some (capture p, r)
          | _ => none
      | '*' :: _ => none
      | '+' :: _ => none
      | '?' :: _ => none
      | c :: r => Option.some (one (· == c), r)
      | [] => none

end

/-- The pattern with this spelling. -/
def read? (s : String) : Option Pattern :=
  match readChoice (4 * s.length + 8) s.toList with
  | Option.some (p, []) => Option.some p
  | _ => none

end Pattern

end WebMigration.Text
