import WebMigration.Syntax.Reader

/-!
# Lexemes

How blanks, comments, words, numbers, strings and regular expressions are spelled.  A lexeme is
described by a function that counts the characters it takes at the head of a text; `lexeme` turns
such a function into a reader that first passes blanks and comments.
-/

namespace WebMigration.Syntax

open Character

variable {file : List Char}

namespace Progress

/-- Passes `n` characters. -/
def advance (p : Progress file) (n : Nat) : Progress file :=
  { p with
    rest := p.rest.drop n
    pos := p.pos + byteSize (p.rest.take n)
    split := by
      obtain ⟨before, hfile, hpos⟩ := p.split
      refine ⟨before ++ p.rest.take n, ?_, ?_⟩
      · rw [List.append_assoc, List.take_append_drop, hfile]
      · rw [byteSize_append, hpos] }

/-- Notes a comment, unless it was noted before. -/
def note (p : Progress file) (c : Passage file) : Progress file :=
  match p.comments with
  | last :: _ => if c.start.1 < last.stop.1 then p else { p with comments := c :: p.comments }
  | [] => { p with comments := [c] }

end Progress

/-- The number of characters up to and including the end of a block comment, given its inside. -/
def blockCommentRest? : List Char → Option Nat
  | '*' :: '/' :: _ => some 2
  | _ :: r => (blockCommentRest? r).map (· + 1)
  | [] => none

/-- The number of characters of a comment at the head of a text. -/
def commentLength? : List Char → Option Nat
  | '/' :: '/' :: r => some (2 + (r.takeWhile (!endsLineComment ·)).length)
  | '/' :: '*' :: r => (blockCommentRest? r).map (· + 2)
  | _ => none

/-- A lexeme of such a length is not empty. -/
def Nonempty (length? : List Char → Option Nat) : Prop := ∀ cs n, length? cs = some n → cs.take n ≠ []

theorem nonempty_commentLength? : Nonempty commentLength? := by
  intro cs n h
  unfold commentLength? at h
  split at h
  · cases h
    rw [Nat.add_comm]
    exact List.cons_ne_nil _ _
  · obtain ⟨m, -, rfl⟩ := Option.map_eq_some_iff.1 h
    exact List.cons_ne_nil _ _
  · cases h

namespace Progress

/-- A lexeme that is not empty takes up some place. -/
theorem pos_lt_advance (p : Progress file) {n : Nat} (h : p.rest.take n ≠ []) :
    p.pos < (p.advance n).pos := by
  have hsize : byteSize (p.rest.take n) ≠ 0 := fun hzero => h (eq_nil_of_byteSize hzero)
  show p.pos < p.pos + byteSize (p.rest.take n)
  omega

/-- Passes the blanks at the head. -/
def afterBlanks (p : Progress file) : Progress file := p.advance (p.rest.takeWhile isBlank).length

/-- Passes blanks and one comment. -/
def afterComment? (p : Progress file) : Option (Progress file) :=
  let q := p.afterBlanks
  match h : commentLength? q.rest with
  | some n =>
      let r := q.advance n
      some (r.note ⟨q.offset, r.offset, q.pos_lt_advance (nonempty_commentLength? _ _ h)⟩)
  | none => none

theorem exists_of_afterComment? {p q : Progress file} (h : p.afterComment? = some q) :
    ∃ n c, commentLength? p.afterBlanks.rest = some n ∧ q = (p.afterBlanks.advance n).note c := by
  unfold afterComment? at h
  dsimp only at h
  split at h
  · rename_i n hn
    exact ⟨n, _, hn, (Option.some.inj h).symm⟩
  · cases h

/-- Passes blanks and at most `fuel` comments. -/
def afterGapUpTo : Nat → Progress file → Progress file
  | 0, p => p
  | fuel + 1, p =>
      match p.afterComment? with
      | some q => afterGapUpTo fuel q
      | none => p.afterBlanks

/-- Passes blanks and comments. -/
def afterGap (p : Progress file) : Progress file := p.afterGapUpTo p.rest.length

end Progress

/-- A lexeme of such a length starts and ends with a character of one byte. -/
def Quoted (length? : List Char → Option Nat) : Prop :=
  ∀ cs n, length? cs = some n → ∃ first inside last, cs.take n = first :: (inside ++ [last]) ∧
    first.utf8Size = 1 ∧ last.utf8Size = 1

namespace Progress

/-- There is a cut after each beginning of what is passed. -/
theorem isCut_of_take (p : Progress file) {n : Nat} {as bs : List Char}
    (h : p.rest.take n = as ++ bs) : IsCut file (p.pos + byteSize as) := by
  obtain ⟨before, hfile, hpos⟩ := p.split
  refine ⟨before ++ as, bs ++ p.rest.drop n, ?_, by rw [byteSize_append, hpos]⟩
  rw [List.append_assoc, ← List.append_assoc as, ← h, List.take_append_drop, hfile]

/-- The inside of a quoted lexeme lies between cuts. -/
theorem isCut_inside (p : Progress file) {length? : List Char → Option Nat} {n : Nat}
    (hquoted : Quoted length?) (h : length? p.rest = some n) :
    IsCut file (p.pos + 1) ∧ IsCut file ((p.advance n).pos - 1) := by
  obtain ⟨first, inside, last, htake, hfirst, hlast⟩ := hquoted _ _ h
  have hopen : p.rest.take n = [first] ++ (inside ++ [last]) := htake
  have hclose : p.rest.take n = (first :: inside) ++ [last] := htake
  refine ⟨by simpa [hfirst] using p.isCut_of_take hopen, ?_⟩
  have hstop : (p.advance n).pos - 1 = p.pos + byteSize (first :: inside) := by
    simp [advance, htake, hlast]
    omega
  rw [hstop]
  exact p.isCut_of_take hclose

end Progress

/-- Reads a lexeme that starts exactly here and is quoted if it is a string. -/
def quotedHere (kind : Kind) (length? : List Char → Option Nat)
    (quoted : kind = .string → Quoted length?) (himport : kind ≠ .importStatement) :
    Reader file (Piece file) := fun _ p =>
  match h : length? p.rest with
  | some n =>
      let q := p.advance n
      .ok (.leaf kind p.offset q.offset (fun hs => p.isCut_inside (quoted hs) h) himport) q
  | none => .fail (max p.reach p.pos)

/-- Reads a lexeme that starts exactly here and is no string. -/
def lexemeHere (kind : Kind) (length? : List Char → Option Nat)
    (hkind : kind.isPlain = true := by exact Eq.refl true) : Reader file (Piece file) :=
  quotedHere kind length? (fun h => absurd h (Kind.ne_string hkind)) (Kind.ne_importStatement hkind)

/-- Reads a lexeme that is no string, after blanks and comments. -/
def lexeme (kind : Kind) (length? : List Char → Option Nat)
    (hkind : kind.isPlain = true := by exact Eq.refl true) : Reader file (Piece file) := fun s p =>
  lexemeHere kind length? hkind s p.afterGap

/-- Reads a string, after blanks and comments. -/
def quotation (length? : List Char → Option Nat) (quoted : Quoted length?) :
    Reader file (Piece file) := fun s p =>
  quotedHere .string length? (fun _ => quoted) Kind.noConfusion s p.afterGap

/-- The text of a lexeme that stands next, if one does. -/
def peekLexeme (length? : List Char → Option Nat) : Reader file (Option String) := fun _ p =>
  let q := p.afterGap
  .ok ((length? q.rest).map fun n => String.ofList (q.rest.take n)) p

/-! ## Punctuation -/

/-- The length of a mark at the head of a text, unless one of the barred characters follows. -/
def markLength? (text : String) (barred : String) (cs : List Char) : Option Nat :=
  let mark := text.toList
  if mark.isPrefixOf cs then
    match cs.drop mark.length with
    | c :: _ => if barred.toList.contains c then none else some mark.length
    | [] => some mark.length
  else none

/-- Reads a punctuation mark that is not followed by one of the barred characters. -/
def markUnless (text barred : String) : Reader file (Piece file) :=
  lexeme (.token text) (markLength? text barred)

/-- Reads a punctuation mark. -/
def mark (text : String) : Reader file (Piece file) := markUnless text ""

/-- Reads a punctuation mark that stands exactly here. -/
def markHere (text : String) : Reader file (Piece file) :=
  lexemeHere (.token text) (markLength? text "")

/-- Reads a punctuation mark as a fragment. -/
def sign (text : String) : Fragment file := Fragment.one (mark text)

/-- The equals sign of an initial value, which is not part of a comparison or an arrow. -/
def equals : Fragment file := Fragment.one (markUnless "=" "=>")

/-! ## Words -/

/-- The number of characters of a character escape in an identifier. -/
def identifierEscapeLength? : List Char → Option Nat
  | '\\' :: 'u' :: '\x7b' :: r =>
      let digits := r.takeWhile isHexDigit
      if digits.isEmpty || (r.drop digits.length).head? != some '\x7d' then none
      else some (digits.length + 4)
  | '\\' :: 'u' :: a :: b :: c :: d :: _ =>
      if [a, b, c, d].all isHexDigit then some 6 else none
  | _ => none

/-- The number of identifier characters at the head of a text; the first `sure` are known. -/
def identifierRun : Nat → List Char → Nat
  | _, [] => 0
  | sure + 1, _ :: r => identifierRun sure r + 1
  | 0, c :: r =>
      if isIdentifierPart c then identifierRun 0 r + 1
      else match identifierEscapeLength? (c :: r) with
        | some (n + 1) => identifierRun n r + 1
        | _ => 0

/-- The length of a word, that is an identifier or a keyword. -/
def wordLength? (cs : List Char) : Option Nat :=
  match cs with
  | [] => none
  | c :: _ =>
      if isIdentifierStart c || (identifierEscapeLength? cs).isSome then some (identifierRun 0 cs)
      else none

/-- Words that no identifier may be. -/
def reservedWords : List String :=
  ["break", "case", "catch", "class", "const", "continue", "debugger", "default", "delete", "do",
    "else", "export", "extends", "false", "finally", "for", "function", "if", "import", "in",
    "instanceof", "new", "null", "return", "super", "switch", "this", "throw", "true", "try",
    "typeof", "var", "void", "while", "with"]

/-- The length of a word that the test admits. -/
def wordThat (test : String → Bool) (cs : List Char) : Option Nat :=
  (wordLength? cs).filter fun n => test (String.ofList (cs.take n))

/-- The word that stands next, if one does. -/
def peekWord : Reader file (Option String) := peekLexeme wordLength?

/-- The word that is passed stands where it is passed. -/
theorem Progress.stands (p : Progress file) {text : String} {n : Nat}
    (h : wordThat (· == text) p.rest = some n) : Stands file p.pos text := by
  obtain ⟨before, hfile, hpos⟩ := p.split
  have htext : p.rest.take n = text.toList := by
    have := beq_iff_eq.1 (Option.filter_eq_some_iff.1 h).2
    rw [← this, String.toList_ofList]
  refine ⟨before, p.rest.drop n, ?_, hpos⟩
  rw [← htext, List.take_append_drop, hfile]

/-- Reads a keyword, and keeps that it stands there. -/
def spelled (text : String) :
    Reader file { p : Piece file // Stands file p.node.start text } := fun _ p =>
  let p := p.afterGap
  match h : wordThat (· == text) p.rest with
  | some n =>
      let q := p.advance n
      .ok ⟨.leaf (.token text) p.offset q.offset Kind.noConfusion Kind.noConfusion, p.stands h⟩ q
  | none => .fail (max p.reach p.pos)

/-- Reads a keyword. -/
def keyword (text : String) : Reader file (Piece file) := do return (← spelled text).1

/-- Reads a keyword as a fragment. -/
def kw (text : String) : Fragment file := Fragment.one (keyword text)

/-- Reads any word under a kind. -/
def anyWord (kind : Kind)
    (hkind : kind.isPlain = true := by exact Eq.refl true) : Reader file (Piece file) :=
  lexeme kind wordLength? hkind

/-- Reads a word that is not reserved under a kind. -/
def freeWord (kind : Kind)
    (hkind : kind.isPlain = true := by exact Eq.refl true) : Reader file (Piece file) :=
  lexeme kind (wordThat (!reservedWords.contains ·)) hkind

/-- Reads an identifier. -/
def identifier : Reader file (Piece file) := freeWord .identifier

/-- Reads an identifier in an expression, where `undefined` is a value of its own. -/
def identifierValue : Reader file (Piece file) :=
  lexeme .undefined (wordThat (· == "undefined")) <|> identifier

/-- The length of a private name. -/
def privateNameLength? : List Char → Option Nat
  | '#' :: r => (wordLength? r).map (· + 1)
  | _ => none

/-! ## Numbers -/

/-- The number of digits at the head of a text, where single underscores may stand between. -/
def digitRun (isDigit : Char → Bool) : List Char → Nat
  | '_' :: c :: r => if isDigit c then digitRun isDigit r + 2 else 0
  | c :: r => if isDigit c then digitRun isDigit r + 1 else 0
  | [] => 0

/-- Like `digitRun`, but starting with a digit. -/
def digits? (isDigit : Char → Bool) (cs : List Char) : Option Nat :=
  match cs with
  | c :: _ => if isDigit c then some (digitRun isDigit cs) else none
  | [] => none

/-- The length of an exponent, or zero. -/
def exponentLength (cs : List Char) : Nat :=
  match cs with
  | e :: s :: r =>
      if e == 'e' || e == 'E' then
        if s == '+' || s == '-' then ((digits? Char.isDigit r).map (· + 2)).getD 0
        else ((digits? Char.isDigit (s :: r)).map (· + 1)).getD 0
      else 0
  | _ => 0

/-- One more character if the text after a number goes on with the mark of a big integer. -/
def withBigMark (n : Nat) (cs : List Char) : Nat :=
  if (cs.drop n).head? == some 'n' then n + 1 else n

/-- The length of a number in a given base after its two characters of mark. -/
def basedLength? (isDigit : Char → Bool) (cs : List Char) : Option Nat :=
  (digits? isDigit (cs.drop 2)).map fun n => withBigMark (n + 2) cs

/-- The length of a decimal number. -/
def decimalLength? (cs : List Char) : Option Nat :=
  let whole := (digits? Char.isDigit cs).getD 0
  match cs.drop whole with
  | '.' :: r =>
      let fraction := (digits? Char.isDigit r).getD 0
      if whole == 0 && fraction == 0 then none
      else
        let n := whole + 1 + fraction
        some (n + exponentLength (cs.drop n))
  | tail =>
      if whole == 0 then none
      else
        let n := whole + exponentLength tail
        some (if n == whole then withBigMark n cs else n)

/-- The length of a number. -/
def numberLength? (cs : List Char) : Option Nat :=
  let based := match cs with
    | '0' :: m :: _ =>
        if m == 'x' || m == 'X' then basedLength? isHexDigit cs
        else if m == 'o' || m == 'O' then basedLength? (fun c => '0' ≤ c && c ≤ '7') cs
        else if m == 'b' || m == 'B' then basedLength? (fun c => c == '0' || c == '1') cs
        else none
    | _ => none
  based <|> decimalLength? cs

def number : Reader file (Piece file) := lexeme .number numberLength?

/-! ## Strings and regular expressions -/

/-- The length of a character escape in a string, the backslash included. -/
def escapeLength? : List Char → Option Nat
  | '\\' :: '\r' :: '\n' :: _ => some 3
  | '\\' :: 'x' :: a :: b :: _ => if isHexDigit a && isHexDigit b then some 4 else none
  | '\\' :: 'x' :: _ => none
  | '\\' :: 'u' :: r => identifierEscapeLength? ('\\' :: 'u' :: r)
  | '\\' :: _ :: _ => some 2
  | _ => none

/-- The number of characters up to and including the closing quote, given the inside of a string;
the first `sure` characters are known, and after a line end only blanks may precede the quote. -/
def stringRest? (quote : Char) : Nat → Bool → List Char → Option Nat
  | _, _, [] => none
  | sure + 1, ended, _ :: r => (stringRest? quote sure ended r).map (· + 1)
  | 0, ended, c :: r =>
      if c == quote then some 1
      else if ended then
        if isBlank c then (stringRest? quote 0 true r).map (· + 1) else none
      else if c == '\n' || c == '\r' then (stringRest? quote 0 true r).map (· + 1)
      else if c == '\\' then
        match escapeLength? (c :: r) with
        | some (n + 1) => (stringRest? quote n false r).map (· + 1)
        | _ => none
      else (stringRest? quote 0 false r).map (· + 1)

/-- What is left of a quoted lexeme, if its length is known, ends with the quote. -/
def ClosedBy (quote : Char) (length? : Option Nat) (cs : List Char) : Prop :=
  ∀ n, length? = some n → ∃ inside, cs.take n = inside ++ [quote]

namespace ClosedBy

variable {quote c : Char} {length? : Option Nat} {cs : List Char}

theorem none : ClosedBy quote .none cs := nofun

theorem one (h : c = quote) : ClosedBy quote (some 1) (c :: cs) := by
  rintro n ⟨⟩
  exact ⟨[], by simp [h]⟩

theorem next (h : ClosedBy quote length? cs) : ClosedBy quote (length?.map (· + 1)) (c :: cs) := by
  intro n hn
  obtain ⟨m, hm, rfl⟩ := Option.map_eq_some_iff.1 hn
  obtain ⟨inside, htake⟩ := h m hm
  exact ⟨c :: inside, by simp [htake]⟩

/-- With a quote in front, such a rest makes a lexeme that starts and ends with one byte. -/
theorem quoted (h : ClosedBy quote length? cs) (hsize : quote.utf8Size = 1) {n : Nat}
    (hn : length?.map (· + 1) = some n) : ∃ first inside last,
      (quote :: cs).take n = first :: (inside ++ [last]) ∧ first.utf8Size = 1 ∧
        last.utf8Size = 1 := by
  obtain ⟨m, hm, rfl⟩ := Option.map_eq_some_iff.1 hn
  obtain ⟨inside, htake⟩ := h m hm
  exact ⟨quote, inside, quote, by simp [htake], hsize, hsize⟩

end ClosedBy

/-- The length of a string literal. -/
def stringLength? : List Char → Option Nat
  | '"' :: r => (stringRest? '"' 0 false r).map (· + 1)
  | '\'' :: r => (stringRest? '\'' 0 false r).map (· + 1)
  | _ => none

theorem closedBy_stringRest? (quote : Char) (sure : Nat) (ended : Bool) (cs : List Char) :
    ClosedBy quote (stringRest? quote sure ended cs) cs := by
  fun_induction stringRest? quote sure ended cs with
  | case1 | case5 | case8 => exact .none
  | case3 _ c r h => exact .one (by simpa using h)
  | case2 _ _ _ _ ih | case4 _ _ _ _ ih | case6 _ _ _ _ _ _ ih | case7 _ _ _ _ _ _ _ _ _ ih
  | case9 _ _ _ _ _ _ _ ih => exact ih.next

theorem quoted_stringLength? : Quoted stringLength? := by
  intro cs n h
  unfold stringLength? at h
  split at h
  · exact (closedBy_stringRest? _ _ _ _).quoted (by decide) h
  · exact (closedBy_stringRest? _ _ _ _).quoted (by decide) h
  · cases h

/-- Reads a string literal. -/
def string : Reader file (Piece file) := quotation stringLength? quoted_stringLength?

/-- The number of characters up to and including the closing slash of a regular expression, given
the rest of its pattern; `inClass` holds between brackets. -/
def regexRest? : Bool → List Char → Option Nat
  | _, [] => none
  | inClass, '\\' :: c :: r => if c == '\n' then none else (regexRest? inClass r).map (· + 2)
  | inClass, c :: r =>
      if c == '\n' || c == '\\' then none
      else if c == '/' && !inClass then some 1
      else
        let inside := if c == '[' then true else if c == ']' then false else inClass
        (regexRest? inside r).map (· + 1)

/-- The length of a regular expression with its flags. -/
def regexLength? : List Char → Option Nat
  | '/' :: r =>
      if r.head? == some '/' then none
      else (regexRest? false r).map fun n =>
        n + 1 + ((r.drop n).takeWhile Char.isLower).length
  | _ => none

def regex : Reader file (Piece file) := lexeme .regex regexLength?

end WebMigration.Syntax
