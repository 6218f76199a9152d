import PathGuard.Grammar.Name
/-!
# Patterns and parameters

What names are bound to: single names, object patterns and array patterns, nested in each other,
and the parameters of functions.
-/

namespace PathGuard.Parser

variable (sub : PhraseParser)

/-! ### Object patterns -/

def restElement (start : Nat) : Parser Child := do
  let name ← sub .binding
  add .bindingElement start (.bindingElement true none name none)

def propertyElement (start : Nat) : Parser Child := do
  let shorthand ← atIdentifier
  let key ← propertyName sub
  if key.isNone then return none
  else if ← acceptMark .colon then
    let name ← sub .binding
    let value ← initializer sub
    add .bindingElement start (.bindingElement false key name value)
  else
    unless shorthand do expectMark .colon
    let value ← initializer sub
    add .bindingElement start (.bindingElement false none key value)

def objectElement : Parser Child := do
  let start ← tokenStart
  if ← acceptMark .dotDotDot then restElement sub start else propertyElement sub start

/-- One more element of an object pattern, and the comma behind it. The elements are kept last
one first. -/
def objectElementStep (elements : List Child) : Parser (ForInStep (List Child)) := do
  let k ← kind
  if k = .mark .closeBrace || k = .endOfFile then return .done elements
  else
    let element ← objectElement sub
    if element.isNone then return .done elements
    else if ← acceptMark .comma then return .yield (element :: elements)
    else return .done (element :: elements)

def objectPattern : Parser Child := nested do
  let start ← tokenStart
  expectMark .openBrace
  let elements ← repeating (objectElementStep sub) []
  expectMark .closeBrace
  add .objectBindingPattern start (.bindingPattern (.ofNodes elements.reverse))

/-! ### Array patterns -/

def hole : Parser Child := do
  let start ← tokenStart
  let node ← addToken .omittedExpression start start
  advance
  return node

def arrayElementStep (elements : List Child) : Parser (ForInStep (List Child)) := do
  let k ← kind
  if k = .mark .closeBracket || k = .endOfFile then return .done elements
  else if k = .mark .comma then return .yield ((← hole) :: elements)
  else
    let start ← tokenStart
    let rest ← acceptMark .dotDotDot
    let name ← sub .binding
    if name.isNone then return .done elements
    else
      let value ← initializer sub
      let element ← add .bindingElement start (.bindingElement rest none name value)
      if ← acceptMark .comma then return .yield (element :: elements)
      else return .done (element :: elements)

def arrayPattern : Parser Child := nested do
  let start ← tokenStart
  expectMark .openBracket
  let elements ← repeating (arrayElementStep sub) []
  expectMark .closeBracket
  add .arrayBindingPattern start (.bindingPattern (.ofNodes elements.reverse))

def binding : Parser Child := do
  match ← kind with
  | .mark .openBrace => objectPattern sub
  | .mark .openBracket => arrayPattern sub
  | _ => identifier

/-! ### Parameters -/

def parameter : Parser Child := do
  let start ← tokenStart
  let rest ← acceptMark .dotDotDot
  let name ← binding sub
  if name.isNone then return none
  else
    let value ← initializer sub
    add .parameter start (.parameter rest name value)

/-- One more parameter, and the comma behind it; remembers whether a comma came last. -/
def parameterStep (acc : List Child × Bool) : Parser (ForInStep (List Child × Bool)) := do
  let k ← kind
  if k = .mark .closeParen || k = .endOfFile then return .done acc
  else
    let node ← parameter sub
    if node.isNone then return .done acc
    else if ← acceptMark .comma then
      return .yield (node :: acc.1, ← atMark .closeParen)
    else return .done (node :: acc.1, acc.2)

def parameterList : Parser NodeList := do
  let start ← tokenStart
  expectMark .openParen
  let (nodes, trailingComma) ← repeating (parameterStep sub) ([], false)
  expectMark .closeParen
  rowFrom start nodes.reverse trailingComma

end PathGuard.Parser
