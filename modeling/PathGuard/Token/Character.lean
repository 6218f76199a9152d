import PathGuard.Text.Letter
/-!
# Classes of characters in program text

Line ends, blanks within a line, and the characters of names.
-/

namespace PathGuard

/-- Line feed, carriage return, line separator, paragraph separator. -/
def isLineTerminator (c : Char) : Bool :=
  c == '\n' || c == '\r' || c == '\u2028' || c == '\u2029'

def isInlineBlank (c : Char) : Bool :=
  c == ' ' || c == '\t' || c == '\x0b' || c == '\x0c' || c == '\u00a0' || c == '\ufeff'
    || c == '\u1680' || c == '\u202f' || c == '\u205f' || c == '\u3000'
    || ('\u2000' ≤ c && c ≤ '\u200a')

def isIdentifierStart (c : Char) : Bool :=
  c.isAlpha || c == '$' || c == '_' || isWideLetter c

/-- A character that a name may go on with: also digits, and the two joiners. -/
def isIdentifierPart (c : Char) : Bool :=
  isIdentifierStart c || c.isDigit || isWideNumber c || c == '\u200c' || c == '\u200d'

end PathGuard
