import PathGuard.Grammar.Name
/-!
# Looking ahead

Some constructs show what they are only some tokens later: an arrow function by its arrow, a
declaration by the name behind `let`. Looking ahead reads tokens and nothing else, and afterwards
the parser stands where it stood.
-/

namespace PathGuard.Parser

inductive Opening where
  | paren | bracket | brace | substitution
  deriving DecidableEq, Repr

/-- Skips a group in parentheses, whatever it holds, and stops behind it. `opened` holds what is
open, innermost first; there are no more tokens than `bound` has characters. The answer says
whether everything was closed in order. -/
def skipGroupWithin : (bound : List Char) → (opened : List Opening) → Parser Bool
  | [], _ => return false
  | _ :: bound, opened => do
    match ← kind with
    | .endOfFile => return false
    | .mark .openParen =>
      skip
      skipGroupWithin bound (.paren :: opened)
    | .mark .openBracket =>
      skip
      skipGroupWithin bound (.bracket :: opened)
    | .mark .openBrace =>
      skip
      skipGroupWithin bound (.brace :: opened)
    | .literal .templateHead =>
      skip
      skipGroupWithin bound (.substitution :: opened)
    | .mark .closeParen =>
      match opened with
      | [.paren] =>
        skip
        return true
      | .paren :: outer =>
        skip
        skipGroupWithin bound outer
      | _ => return false
    | .mark .closeBracket =>
      match opened with
      | .bracket :: outer =>
        skip
        skipGroupWithin bound outer
      | _ => return false
    | .mark .closeBrace =>
      match opened with
      | .substitution :: outer =>
        reread Lexer.rescanTemplate
        let ends ← isAt (.literal .templateTail)
        skip
        skipGroupWithin bound (if ends then outer else opened)
      | .brace :: outer =>
        skip
        skipGroupWithin bound outer
      | _ => return false
    | _ =>
      skip
      skipGroupWithin bound opened

def skipGroup : Parser Bool := do
  skipGroupWithin (← textLeft) []

def atArrow : Parser Bool := do
  if ← atMark .arrow then return !(← afterLineBreak) else return false

def groupThenArrow : Parser Bool := do
  if ← skipGroup then atArrow else return false

def tokenThenArrow : Parser Bool := do
  skip
  atArrow

/-- Whether an `async` is followed, on its line, by parameters and an arrow. -/
def asyncThenArrow : Parser Bool := do
  skip
  if ← afterLineBreak then return false
  else if ← atMark .openParen then groupThenArrow
  else if ← atIdentifier then tokenThenArrow
  else return false

/-- Whether an arrow function begins here, and if so, whether it is an asynchronous one. -/
def arrowAhead : Parser (Option Bool) := do
  match ← kind with
  | .mark .openParen => return if ← lookAhead groupThenArrow then some false else none
  | .word .asyncWord =>
    if ← lookAhead asyncThenArrow then return some true
    else return if ← lookAhead tokenThenArrow then some false else none
  | _ =>
    if ← atIdentifier then return if ← lookAhead tokenThenArrow then some false else none
    else return none

def letDeclarationAhead : Parser Bool := do
  let (next, _) ← peek
  return next == .identifier || next == .mark .openBrace || next == .mark .openBracket
    || next.isContextualWord

def asyncFunctionAhead : Parser Bool := do
  let (next, lineBreak) ← peek
  return next == .word .functionWord && !lineBreak

def importExpressionAhead : Parser Bool := do
  let (next, _) ← peek
  return next == .mark .openParen || next == .mark .dot

end PathGuard.Parser
