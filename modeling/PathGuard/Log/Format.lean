import PathGuard.Text.Blank
/-!
# Formats of a log
-/

namespace PathGuard

inductive LogFormat where
  | text | tree | json
  deriving DecidableEq, Repr, Inhabited

namespace LogFormat

/-- The format with a name, in any case and with blanks around it; plain text for other names. -/
def ofName (name : String) : LogFormat :=
  let word := (trimBlanks name.toList).map Char.toLower
  if word = ['t', 'r', 'e', 'e'] then tree
  else if word = ['j', 's', 'o', 'n'] then json
  else text

end LogFormat

end PathGuard
