import PathGuard.Grammar.Pattern
/-!
# Blocks and function bodies
-/

namespace PathGuard.Parser

variable (sub : PhraseParser)

/-! ### Statements in a row -/

/-- One more statement. A token that begins none is noted and skipped. -/
def statementStep (isEnd : TokenKind → Bool) (statements : List Child) :
    Parser (ForInStep (List Child)) := do
  let k ← kind
  if k = .endOfFile || isEnd k then return .done statements
  else
    let start ← tokenStart
    let statement ← sub .statement
    let k' ← kind
    if (← tokenStart) = start && k' = k && k' ≠ .endOfFile then
      reportHere .statementExpected
      advance
    return .yield (if statement.isSome then statement :: statements else statements)

def statementList (isEnd : TokenKind → Bool) : Parser NodeList := do
  let start ← tokenStart
  let statements ← repeating (statementStep sub isEnd) []
  rowFrom start statements.reverse false

/-- Statements in braces; the node begins at `start`, and takes several lines when the braces do. -/
def blockFrom (k : NodeKind) (start : Nat) : Parser Child := do
  let brace ← tokenCursor
  expectMark .openBrace
  let statements ← statementList sub (· == .mark .closeBrace)
  expectMark .closeBrace
  add k start (.block statements (← spansLines brace))

def block : Parser Child := do blockFrom sub .block (← tokenStart)

/-! ### Functions -/

def signatureAndBody (isAsync isGenerator : Bool) : Parser (NodeList × Child) :=
  within (fun _ => .ofFunction isAsync isGenerator) do
    let parameters ← parameterList sub
    let body ← block sub
    return (parameters, body)

/-- The function declaration at the current token. Only a default export may do without a name. -/
def functionDeclaration (nameOptional : Bool) : Parser Child := do
  let start ← tokenStart
  let isAsync ← acceptWord .asyncWord
  expectWord .functionWord
  let isGenerator ← acceptMark .asterisk
  let name ← do
    if ← atIdentifier then identifier
    else
      unless nameOptional do reportHere .identifierExpected
      pure none
  let (parameters, body) ← signatureAndBody sub isAsync isGenerator
  add .functionDeclaration start (.function none isAsync isGenerator name parameters body false)

/-- The function expression at the current token. Its name is one inside the function. -/
def functionExpression : Parser Child := do
  let start ← tokenStart
  let isAsync ← acceptWord .asyncWord
  expectWord .functionWord
  let isGenerator ← acceptMark .asterisk
  let named ← within (fun _ => .ofFunction isAsync isGenerator) atIdentifier
  let name ← if named then takeIdentifier .identifier else pure none
  let (parameters, body) ← signatureAndBody sub isAsync isGenerator
  add .functionExpression start (.function none isAsync isGenerator name parameters body false)

/-! ### What stands before the name of a method -/

inductive Accessor where
  | getter | setter
  deriving DecidableEq, Repr

structure MethodMarks where
  isAsync : Bool
  accessor : Option Accessor
  isGenerator : Bool
  deriving DecidableEq, Repr

namespace MethodMarks

def any (m : MethodMarks) : Bool := m.isAsync || m.accessor.isSome || m.isGenerator

def kind (m : MethodMarks) (plain : NodeKind) : NodeKind :=
  match m.accessor with
  | some .getter => .getAccessor
  | some .setter => .setAccessor
  | none => plain

end MethodMarks

/-- Whether the token after a word shows that the word is the name of a member and not a mark
before it. -/
def endsMemberName : TokenKind → Bool
  | .mark .openParen | .mark .equals | .mark .semicolon | .mark .closeBrace | .mark .comma
  | .mark .colon | .endOfFile => true
  | _ => false

def atMemberMark : Parser Bool := do
  let (next, lineBreak) ← peek
  if lineBreak && (← atWord .asyncWord) then return false
  else return !endsMemberName next

def accessorMark : Parser (Option Accessor) := do
  let found : Option Accessor :=
    match ← kind with
    | .word .getWord => some .getter
    | .word .setWord => some .setter
    | _ => none
  if found.isSome then
    if ← atMemberMark then
      advance
      return found
    else return none
  else return none

def methodMarks : Parser MethodMarks := do
  let isAsync ← do
    if ← atWord .asyncWord then
      if ← atMemberMark then
        advance
        pure true
      else pure false
    else pure false
  let accessor ← if isAsync then pure none else accessorMark
  let isGenerator ← if accessor.isNone then acceptMark .asterisk else pure false
  return ⟨isAsync, accessor, isGenerator⟩

def method (k : NodeKind) (start : Nat) (modifiers : Option NodeList) (marks : MethodMarks)
    (name : Child) : Parser Child := do
  let (parameters, body) ← signatureAndBody sub marks.isAsync marks.isGenerator
  add k start
    (.function modifiers marks.isAsync marks.isGenerator name parameters body false)

end PathGuard.Parser
