/-!
# Character classes of script files

Which characters separate tokens, which end a line and which may stand in an identifier.  An
identifier character is any character that is neither a control character, a blank nor one of the
punctuation marks of the grammar, so letters of every script qualify.
-/

namespace WebMigration.Syntax.Character

/-- A space separator of the Unicode standard. -/
def isSpaceSeparator (c : Char) : Bool :=
  c == ' ' || c == '\u00a0' || c == '\u1680' || ('\u2000' ≤ c && c ≤ '\u200a') ||
    c == '\u202f' || c == '\u205f' || c == '\u3000'

/-- A blank between tokens. -/
def isBlank (c : Char) : Bool :=
  ('\t' ≤ c && c ≤ '\r') || isSpaceSeparator c || c == '\ufeff' || c == '\u2028' ||
    c == '\u2029' || c == '\u2060' || c == '\u200b'

/-- A blank for the insertion of statement ends, which does not count no-break spaces. -/
def isBreakableBlank (c : Char) : Bool :=
  ('\t' ≤ c && c ≤ '\r') || c == ' ' || c == '\u1680' || ('\u2000' ≤ c && c ≤ '\u2006') ||
    ('\u2008' ≤ c && c ≤ '\u200a') || c == '\u2028' || c == '\u2029' || c == '\u205f' ||
    c == '\u3000'

/-- A line separator for the insertion of statement ends. -/
def isLineBreak (c : Char) : Bool := c == '\n' || c == '\u2028' || c == '\u2029'

/-- A character that ends a line comment. -/
def endsLineComment (c : Char) : Bool := isLineBreak c || c == '\r'

/-- A punctuation mark, which no identifier contains. -/
def isPunctuation (c : Char) : Bool :=
  ":;\x60\"'@#.,|^&<=>+-*/\\%?!~()[]\x7b\x7d".toList.contains c

/-- A character inside an identifier. -/
def isIdentifierPart (c : Char) : Bool := '\x1f' < c && !isBlank c && !isPunctuation c

/-- A character at the start of an identifier. -/
def isIdentifierStart (c : Char) : Bool := isIdentifierPart c && !c.isDigit

def isHexDigit (c : Char) : Bool :=
  c.isDigit || ('a' ≤ c && c ≤ 'f') || ('A' ≤ c && c ≤ 'F')

end WebMigration.Syntax.Character
