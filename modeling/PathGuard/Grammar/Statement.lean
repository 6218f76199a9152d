import PathGuard.Grammar.Operator
/-!
# Statements
-/

namespace PathGuard.Parser

variable (sub : PhraseParser)

/-! ### Variables -/

def variableDeclaration : Parser Child := do
  let start ← tokenStart
  let name ← binding sub
  if name.isNone then return none
  else
    let value ← initializer sub
    add .variableDeclaration start (.variableDeclaration name value)

def declarationStep (declarations : List Child) : Parser (ForInStep (List Child)) := do
  let declaration ← variableDeclaration sub
  if declaration.isNone then return .done declarations
  else if ← acceptMark .comma then return .yield (declaration :: declarations)
  else return .done (declaration :: declarations)

def declarationFlags : TokenKind → Nat
  | .word .constWord => NodeFlag.constVariables
  | .word .letWord => NodeFlag.letVariables
  | _ => 0

def variableDeclarationList : Parser Child := do
  let start ← tokenStart
  let flags := declarationFlags (← kind)
  advance
  let declarations ← repeating (declarationStep sub) []
  if declarations.isEmpty then reportHere .variableDeclarationExpected
  addFlagged .variableDeclarationList flags start (.variableList (.ofNodes declarations.reverse))

def variableStatement : Parser Child := do
  let start ← tokenStart
  let list ← variableDeclarationList sub
  endStatement
  add .variableStatement start (.variableList (.ofNodes [list]))

/-! ### Simple statements -/

def emptyStatement : Parser Child := do
  let start ← tokenStart
  advance
  addBare .emptyStatement start

def debuggerStatement : Parser Child := do
  let start ← tokenStart
  advance
  endStatement
  addBare .debuggerStatement start

def expressionStatement : Parser Child := do
  let start ← tokenStart
  let value ← expression sub
  if value.isNone then return none
  else
    endStatement
    add .expressionStatement start (.expressionStatement value)

def labeledStatement : Parser Child := do
  let start ← tokenStart
  let label ← identifier
  expectMark .colon
  let statement ← sub .statement
  add .labeledStatement start (.labeled label statement)

/-- A jump, with the label it goes to when one stands on its line. -/
def jumpStatement (k : NodeKind) : Parser Child := do
  let start ← tokenStart
  advance
  let labeled ← if ← atIdentifier then pure !(← afterLineBreak) else pure false
  let label ← if labeled then identifier else pure none
  endStatement
  add k start (.jump label)

def returnOrThrow (k : NodeKind) : Parser Child := do
  let start ← tokenStart
  advance
  let value ← if ← atStatementEnd then pure none else expression sub
  endStatement
  add k start (.returnOrThrow value)

/-! ### Choices and loops -/

def condition : Parser Child := do
  expectMark .openParen
  let value ← expression sub
  expectMark .closeParen
  return value

def ifStatement : Parser Child := do
  let start ← tokenStart
  advance
  let test ← condition sub
  let thenStatement ← sub .statement
  let elseStatement ← if ← acceptWord .elseWord then sub .statement else pure none
  add .ifStatement start (.ifStatement test thenStatement elseStatement)

/-- A `do`; behind its condition a semicolon may be left out. -/
def doStatement : Parser Child := do
  let start ← tokenStart
  advance
  let statement ← sub .statement
  expectWord .whileWord
  let test ← condition sub
  let _ ← acceptMark .semicolon
  add .doStatement start (.loop none test none statement)

def whileStatement : Parser Child := do
  let start ← tokenStart
  advance
  let test ← condition sub
  let statement ← sub .statement
  add .whileStatement start (.loop none test none statement)

def atVariables : Parser Bool := do
  match ← kind with
  | .word .varWord | .word .constWord => return true
  | .word .letWord => letDeclarationAhead
  | _ => return false

def forInitializer : Parser Child := do
  if ← atMark .semicolon then return none
  else if ← atVariables then within .forbidIn (variableDeclarationList sub)
  else within .forbidIn (expression sub)

def forMembers (k : NodeKind) (start : Nat) (isAwait : Bool) (variable_ value : Child) :
    Parser Child := do
  expectMark .closeParen
  let statement ← sub .statement
  add k start (.forInOf isAwait variable_ value statement)

/-- A part of a `for` that may be left out before `stop`. -/
def forPart (stop : Punctuator) : Parser Child := do
  if ← atMark stop then return none else within .allowIn (expression sub)

def forCondition (start : Nat) (initial : Child) : Parser Child := do
  expectMark .semicolon
  let test ← forPart sub .semicolon
  expectMark .semicolon
  let next ← forPart sub .closeParen
  expectMark .closeParen
  let statement ← sub .statement
  add .forStatement start (.loop initial test next statement)

def forStatement : Parser Child := do
  let start ← tokenStart
  advance
  let isAwait ← acceptWord .awaitWord
  expectMark .openParen
  let initial ← forInitializer sub
  if ← acceptWord .ofWord then
    let value ← within .allowIn (assignmentOrReport sub)
    forMembers sub .forOfStatement start isAwait initial value
  else if ← acceptWord .inWord then
    let value ← within .allowIn (expression sub)
    forMembers sub .forInStatement start isAwait initial value
  else forCondition sub start initial

def endsClause : TokenKind → Bool
  | .word .caseWord | .word .defaultWord | .mark .closeBrace => true
  | _ => false

def clauseBody (k : NodeKind) (start : Nat) (value : Child) : Parser Child := do
  expectMark .colon
  let statements ← statementList sub endsClause
  add k start (.caseClause value statements)

/-- One more clause of a `switch`. A token that begins none is noted and skipped. -/
def clauseStep (clauses : List Child) : Parser (ForInStep (List Child)) := do
  let k ← kind
  if k = .mark .closeBrace || k = .endOfFile then return .done clauses
  else
    let start ← tokenStart
    if ← acceptWord .caseWord then
      let value ← expression sub
      return .yield ((← clauseBody sub .caseClause start value) :: clauses)
    else if ← acceptWord .defaultWord then
      return .yield ((← clauseBody sub .defaultClause start none) :: clauses)
    else
      expectWord .caseWord
      advance
      return .yield clauses

def switchStatement : Parser Child := do
  let start ← tokenStart
  advance
  let value ← condition sub
  let blockStart ← tokenStart
  expectMark .openBrace
  let clauses ← repeating (clauseStep sub) []
  expectMark .closeBrace
  let caseBlock ← add .caseBlock blockStart (.block (.ofNodes clauses.reverse) true)
  add .switchStatement start (.switch value caseBlock)

/-! ### Exceptions -/

def catchVariable : Parser Child := do
  if ← acceptMark .openParen then
    let start ← tokenStart
    let name ← binding sub
    expectMark .closeParen
    add .variableDeclaration start (.variableDeclaration name none)
  else return none

def catchClause : Parser Child := do
  if ← atWord .catchWord then
    let start ← tokenStart
    advance
    let declaration ← catchVariable sub
    let body ← block sub
    add .catchClause start (.catchClause declaration body)
  else return none

/-- A `try`, which needs a `catch` or a `finally`. -/
def tryStatement : Parser Child := do
  let start ← tokenStart
  advance
  let tryBlock ← block sub
  let clause ← catchClause sub
  let finallyBlock ← if ← acceptWord .finallyWord then block sub else pure none
  if clause.isNone && finallyBlock.isNone then expectWord .catchWord
  add .tryStatement start (.tryStatement tryBlock clause finallyBlock)

end PathGuard.Parser
