import PathGuard.Grammar.Phrase
/-!
# Names and literals

Nodes that are made of one token, and the names of properties.
-/

namespace PathGuard.Parser

def takeIdentifier (k : TokenKind) : Parser Child := do
  let start ← tokenStart
  let stop ← tokenEnd
  let text ← tokenValue
  advance
  addSpanned (.token k) start stop (.identifier text)

def takeLiteral : Parser Child := do
  let k ← kind
  let start ← tokenStart
  let stop ← tokenEnd
  let value ← tokenValue
  let text ← tokenText
  advance
  addSpanned (.token k) start stop (.literal value (some text))

def takeToken : Parser Child := do
  let k ← kind
  let start ← tokenStart
  let stop ← tokenEnd
  advance
  addToken (.token k) start stop

/-- A name, where words that mean something here are none. -/
def identifier : Parser Child := do
  if ← atIdentifier then takeIdentifier .identifier
  else
    reportHere .identifierExpected
    return none

/-- A name behind a dot or of a property, where every word is one. -/
def identifierName : Parser Child := do
  let k ← kind
  if k = .privateIdentifier then takeIdentifier .privateIdentifier
  else if k.isIdentifierOrWord then takeIdentifier .identifier
  else
    reportHere .identifierExpected
    return none

variable (sub : PhraseParser)

def computedName : Parser Child := do
  let start ← tokenStart
  advance
  let expression ← within .allowIn (assignmentOrReport sub)
  expectMark .closeBracket
  add .computedPropertyName start (.computedProperty expression)

def propertyName : Parser Child := do
  match ← kind with
  | .literal .string | .literal .number | .literal .bigInt => takeLiteral
  | .mark .openBracket => computedName sub
  | _ => identifierName

end PathGuard.Parser
