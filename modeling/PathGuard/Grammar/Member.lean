import PathGuard.Grammar.Primary
/-!
# Members, calls and optional chains

What follows an expression without an operator: names behind dots, keys in brackets, arguments,
templates. Once a link is written with `?.`, the links behind it belong to an optional chain too,
up to a parenthesis that closes around it.
-/

namespace PathGuard.Parser

variable (sub : PhraseParser)

/-! ### Arguments -/

def argumentStep (acc : List Child × Bool) : Parser (ForInStep (List Child × Bool)) := do
  let k ← kind
  if k = .mark .closeParen || k = .endOfFile then return .done acc
  else
    let argument ← spreadOrAssignment sub .spreadElement
    if argument.isNone then
      reportHere .argumentExpected
      return .done acc
    else if ← acceptMark .comma then
      return .yield (argument :: acc.1, ← atMark .closeParen)
    else return .done (argument :: acc.1, acc.2)

def argumentList : Parser NodeList := do
  let start ← tokenStart
  expectMark .openParen
  let (nodes, trailingComma) ← within .allowIn (repeating (argumentStep sub) ([], false))
  expectMark .closeParen
  rowFrom start nodes.reverse trailingComma

/-! ### Links -/

def propertyAccess (flags start : Nat) (object : Child) (questionDot : Bool) : Parser Child := do
  let name ← identifierName
  addFlagged .propertyAccess flags start (.access object name questionDot)

def elementAccess (flags start : Nat) (object : Child) (questionDot : Bool) : Parser Child := do
  expectMark .openBracket
  let key ← within .allowIn (expression sub)
  expectMark .closeBracket
  addFlagged .elementAccess flags start (.access object key questionDot)

def call (flags start : Nat) (callee : Child) : Parser Child := do
  let arguments ← argumentList sub
  addFlagged .callExpression flags start (.call callee (some arguments))

def optionalLink (start : Nat) (object : Child) : Parser Child := do
  match ← kind with
  | .mark .openBracket => elementAccess sub NodeFlag.optionalChain start object true
  | .mark .openParen => call sub NodeFlag.optionalChain start object
  | _ => propertyAccess NodeFlag.optionalChain start object true

/-- The template behind its tag. None belongs into an optional chain. -/
def taggedTemplate (chained : Bool) (flags start : Nat) (tag : Child) : Parser Child := do
  if chained then reportHere .expressionExpected
  let text ← template sub
  addFlagged .taggedTemplate flags start (.taggedTemplate tag text)

/-- One more link. `acc` is the expression so far, and whether it belongs to an optional chain. -/
def linkStep (start : Nat) (allowCalls : Bool) (acc : Child × Bool) :
    Parser (ForInStep (Child × Bool)) := do
  let (object, chained) := acc
  let flags := if chained then NodeFlag.optionalChain else 0
  match ← kind with
  | .mark .dot =>
    advance
    return .yield (← propertyAccess flags start object false, chained)
  | .mark .openBracket => return .yield (← elementAccess sub flags start object false, chained)
  | .mark .openParen =>
    if allowCalls then return .yield (← call sub flags start object, chained)
    else return .done acc
  | .mark .questionDot =>
    if allowCalls then
      advance
      return .yield (← optionalLink sub start object, true)
    else return .done acc
  | .literal .template | .literal .templateHead =>
    return .yield (← taggedTemplate sub chained flags start object, chained)
  | _ => return .done acc

/-- All links behind an expression; behind the callee of a `new` neither calls nor optional
links. -/
def links (start : Nat) (object : Child) (allowCalls : Bool) : Parser Child := do
  let (linked, _) ← repeating (linkStep sub start allowCalls) (object, false)
  return linked

/-! ### What the links follow -/

def callee : Parser Child := do
  let start ← tokenStart
  let object ← if ← atWord .newWord then sub .newExpression else primary sub
  if object.isSome then links sub start object false
  else
    reportHere .expressionExpected
    return none

def newExpression : Parser Child := nested do
  let start ← tokenStart
  advance
  if ← acceptMark .dot then
    let name ← identifierName
    add .metaProperty start (.metaProperty (.token (.word .newWord)) name)
  else
    let object ← callee sub
    let arguments ← if ← atMark .openParen then some <$> argumentList sub else pure none
    add .newExpression start (.call object arguments)

def leftHandSide : Parser Child := do
  let start ← tokenStart
  let object ← if ← atWord .newWord then newExpression sub else primary sub
  if object.isNone then return none
  else links sub start object true

end PathGuard.Parser
