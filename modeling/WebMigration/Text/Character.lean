import WebMigration.Text.CharacterTables

/-!
# Letters, numerals, blanks and case

Classes of characters over all of Unicode, and the lower and upper case of texts.  ASCII characters
are classified directly; the others by table.
-/

namespace WebMigration.Text

/-- Whether a code point lies in one of the ranges. -/
def inRanges (ranges : List (Nat × Nat)) (n : Nat) : Bool :=
  ranges.any fun r => r.1 ≤ n && n ≤ r.2

/-- A letter or a numeral. -/
def isAlphanumeric (c : Char) : Bool :=
  if c.toNat < 0x80 then c.isAlphanum else inRanges alphanumericRanges c.toNat

/-- A letter, a numeral or an underscore. -/
def isWord (c : Char) : Bool := c == '_' || isAlphanumeric c

/-- A blank, among them the line ends and the separators of information. -/
def isSpace (c : Char) : Bool :=
  ('\t' ≤ c && c ≤ '\r') || ('\x1c' ≤ c && c ≤ ' ') || c == '\u0085' || c == '\u00a0' ||
    c == '\u1680' || ('\u2000' ≤ c && c ≤ '\u200a') || c == '\u2028' || c == '\u2029' ||
    c == '\u202f' || c == '\u205f' || c == '\u3000'

/-- The value of a decimal digit of any script. -/
def digitValue? (c : Char) : Option Nat :=
  if c.toNat < 0x80 then if c.isDigit then some (c.toNat - 48) else none
  else
    (decimalZeros.find? fun first => first ≤ c.toNat && c.toNat ≤ first + 9).map (c.toNat - ·)

/-- The partner of a code point in a list of runs. -/
def casePartner? (runs : List CaseRun) (n : Nat) : Option Nat :=
  (runs.find? fun r => r.first ≤ n && n ≤ r.last && (n - r.first) % r.step == 0).map fun r =>
    ((n : Int) + r.distance).toNat

/-- The lower case of a character. -/
def lowerChar (c : Char) : List Char :=
  if c.toNat < 0x80 then [c.toLower]
  else if c == '\u0130' then ['i', '\u0307']
  else [((casePartner? lowerRuns c.toNat).map Char.ofNat).getD c]

/-- The upper case of a character. -/
def upperChar (c : Char) : List Char :=
  if c.toNat < 0x80 then [c.toUpper]
  else
    match upperExpansions.find? (·.1 == c.toNat) with
    | some (_, cs) => cs.map Char.ofNat
    | none => [((casePartner? upperRuns c.toNat).map Char.ofNat).getD c]

/-- A character in lower, upper or title case. -/
def isCased (c : Char) : Bool :=
  if c.toNat < 0x80 then c.isAlpha else inRanges casedRanges c.toNat

/-- A character that is passed over when it is asked whether a word ends, such as an apostrophe. -/
def isCaseIgnorable (c : Char) : Bool :=
  if c.toNat < 0x80 then c == '\'' || c == '.' || c == ':' || c == '^' || c == '\x60'
  else inRanges caseIgnorableRanges c.toNat

/-- Whether a text starts with a character that has a case, those aside that are passed over. -/
def startsCased (cs : List Char) : Bool :=
  ((cs.find? fun c => !isCaseIgnorable c).map isCased).getD false

/-- The lower case of a text behind some characters, the nearest first; a sigma at the end of a word takes
its final form. -/
def lowerFrom (before : List Char) : List Char → List Char
  | [] => []
  | c :: after =>
      if c == '\u03a3' then
        (if startsCased before && !startsCased after then '\u03c2' else '\u03c3') ::
          lowerFrom (c :: before) after
      else lowerChar c ++ lowerFrom (c :: before) after

/-- The lower case of a text. -/
def lower (s : String) : String := String.ofList (lowerFrom [] s.toList)

/-- The upper case of a text. -/
def upper (s : String) : String := String.ofList (s.toList.flatMap upperChar)

/-- Whether a character is an ASCII letter in either case, where the long s, the Kelvin sign and the
dotted and dotless i count as s, k and i. -/
def isLetterOf (lowercase c : Char) : Bool :=
  c.toLower == lowercase || (lowercase == 's' && c == '\u017f') ||
    (lowercase == 'k' && c == '\u212a') ||
    (lowercase == 'i' && (c == '\u0130' || c == '\u0131'))

end WebMigration.Text
