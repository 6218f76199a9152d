import PathGuard.Grammar.State
/-!
# Phrases

The constructs through which the grammar refers to itself. A rule of the grammar takes the parser
of phrases as an argument, so each rule can be read, and reasoned about, on its own; the last
module of the grammar ties the rules together.
-/

namespace PathGuard

/-- A construct that may contain itself. -/
inductive Phrase where
  | statement
  | assignment
  /-- an operand with the operators before and behind it -/
  | unary
  /-- operands joined by operators that bind more tightly than `least` -/
  | binary (least : Nat)
  /-- an operand that may be assigned to, called or indexed -/
  | leftHandSide
  | newExpression
  | binding
  deriving DecidableEq, Repr

abbrev PhraseParser := Phrase → Parser Child

namespace Parser

variable (sub : PhraseParser)

def assignmentOrReport : Parser Child := do
  let expression ← sub .assignment
  if expression.isNone then reportHere .expressionExpected
  return expression

def commaStep (start : Nat) (left : Child) : Parser (ForInStep Child) := do
  if ← acceptMark .comma then
    let right ← assignmentOrReport sub
    return .yield (← add .binaryExpression start (.binary left (.token (.mark .comma)) right))
  else return .done left

def expression : Parser Child := do
  let start ← tokenStart
  let left ← sub .assignment
  if left.isNone then
    reportHere .expressionExpected
    return none
  else repeating (commaStep sub start) left

def initializer : Parser Child := do
  if ← acceptMark .equals then assignmentOrReport sub else return none

end Parser

end PathGuard
