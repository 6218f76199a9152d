import PathGuard.Grammar.Member
/-!
# Operators, assignments and arrow functions
-/

namespace PathGuard.Parser

variable (sub : PhraseParser)

/-! ### Operators -/

def operatorBefore? (c : Context) : TokenKind → Option NodeKind
  | .mark .plus | .mark .minus | .mark .tilde | .mark .exclamation | .mark .plusPlus
  | .mark .minusMinus | .word .typeofWord | .word .voidWord | .word .deleteWord =>
    some .prefixUnary
  | .word .awaitWord => if c.isAsync then some .awaitExpression else none
  | _ => none

/-- An operand and the operator behind it, which has to stand on its line. -/
def operatorBehind : Parser Child := do
  let start ← tokenStart
  let operand ← leftHandSide sub
  let k ← kind
  if operand.isSome && (k == .mark .plusPlus || k == .mark .minusMinus)
      && !(← afterLineBreak) then
    advance
    add .postfixUnary start (.unary (.token k) operand)
  else return operand

def unaryHere : Parser Child := do
  let start ← tokenStart
  let k ← kind
  match operatorBefore? (← context) k with
  | some node =>
    advance
    let operand ← sub .unary
    if operand.isNone then reportHere .expressionExpected
    add node start (.unary (.token k) operand)
  | none => operatorBehind sub

def unary : Parser Child := nested (unaryHere sub)

/-- How tightly an operator binds its operands; 0 for what is no operator between operands. -/
def precedence (c : Context) : TokenKind → Nat
  | .mark .questionQuestion | .mark .barBar => 1
  | .mark .ampersandAmpersand => 2
  | .mark .bar => 3
  | .mark .caret => 4
  | .mark .ampersand => 5
  | .mark .equalsEquals | .mark .exclamationEquals | .mark .equalsEqualsEquals
  | .mark .exclamationEqualsEquals => 6
  | .mark .lessThan | .mark .greaterThan | .mark .lessThanEquals | .mark .greaterThanEquals
  | .word .instanceofWord => 7
  | .word .inWord => if c.forbidsIn then 0 else 7
  | .mark .lessThanLessThan | .mark .greaterThanGreaterThan
  | .mark .greaterThanGreaterThanGreaterThan => 8
  | .mark .plus | .mark .minus => 9
  | .mark .asterisk | .mark .slash | .mark .percent => 10
  | .mark .asteriskAsterisk => 11
  | _ => 0

/-- One more operator, with its right operand. A power groups to the right, all else to the
left. -/
def operatorStep (start least : Nat) (left : Child) : Parser (ForInStep Child) := do
  let operator ← kind
  let binds := precedence (← context) operator
  if binds ≤ least then return .done left
  else
    advance
    let right ← sub (.binary (if operator = .mark .asteriskAsterisk then binds - 1 else binds))
    if right.isNone then reportHere .expressionExpected
    return .yield (← add .binaryExpression start (.binary left (.token operator) right))

def binary (least : Nat) : Parser Child := do
  let start ← tokenStart
  let left ← unary sub
  if left.isNone then return none
  else repeating (operatorStep sub start least) left

def conditional : Parser Child := do
  let start ← tokenStart
  let condition ← binary sub 0
  if condition.isNone then return none
  else if ← acceptMark .question then
    let whenTrue ← within .allowIn (assignmentOrReport sub)
    expectMark .colon
    let whenFalse ← assignmentOrReport sub
    add .conditionalExpression start (.conditional condition whenTrue whenFalse)
  else return condition

/-! ### Arrow functions -/

def arrowParameters (isAsync : Bool) : Parser NodeList := do
  if ← atMark .openParen then
    within (fun _ => .ofFunction isAsync false) (parameterList sub)
  else
    let start ← tokenStart
    let name ← identifier
    let node ← add .parameter start (.parameter false name none)
    return .ofNodes [node]

def arrowBody (isAsync : Bool) : Parser Child := do
  if ← atMark .openBrace then within (fun _ => .ofFunction isAsync false) (block sub)
  else within (.ofArrowBody isAsync) (assignmentOrReport sub)

def arrowFunction (isAsync : Bool) : Parser Child := do
  let start ← tokenStart
  if isAsync then advance
  let parameters ← arrowParameters sub isAsync
  expectMark .arrow
  let body ← arrowBody sub isAsync
  add .arrowFunction start (.function none isAsync false none parameters body true)

/-! ### Assignments -/

def atYieldEnd : Parser Bool := do
  if ← afterLineBreak then return true
  else
    match ← kind with
    | .mark .closeParen | .mark .closeBracket | .mark .closeBrace | .mark .colon | .mark .comma
    | .mark .semicolon | .endOfFile => return true
    | _ => return false

def yieldExpression : Parser Child := do
  let start ← tokenStart
  advance
  let delegates ← if ← afterLineBreak then pure false else acceptMark .asterisk
  let alone ← if delegates then pure false else atYieldEnd
  let operand ← if alone then pure none else assignmentOrReport sub
  let operator : TokenKind := if delegates then .mark .asterisk else .word .yieldWord
  add .yieldExpression start (.unary (.token operator) operand)

def assignmentOrCondition : Parser Child := do
  let start ← tokenStart
  let target ← conditional sub
  let operator ← kind
  if target.isSome && operator.isAssignment then
    advance
    let value ← assignmentOrReport sub
    add .binaryExpression start (.binary target (.token operator) value)
  else return target

def assignmentHere : Parser Child := do
  if (← atWord .yieldWord) && (← context).isGenerator then yieldExpression sub
  else
    match ← arrowAhead with
    | some isAsync => arrowFunction sub isAsync
    | none => assignmentOrCondition sub

def assignment : Parser Child := nested (assignmentHere sub)

end PathGuard.Parser
