import PathGuard.Grammar.Class
import PathGuard.Grammar.Lookahead
/-!
# Primary expressions

Expressions that begin with a token of their own and end with one: names, literals, templates, and
what stands in brackets of any kind.
-/

namespace PathGuard.Parser

variable (sub : PhraseParser)

/-! ### Templates -/

def templateSpanStep (spans : List Child) : Parser (ForInStep (List Child)) := do
  let start ← tokenStart
  let value ← within .allowIn (expression sub)
  if ← atMark .closeBrace then
    rescan Lexer.rescanTemplate .unterminatedTemplate
    let ends ← isAt (.literal .templateTail)
    let literal ← takeLiteral
    let span ← add .templateSpan start (.templateSpan value literal)
    return if ends then .done (span :: spans) else .yield (span :: spans)
  else
    expectMark .closeBrace
    return .done spans

def template : Parser Child := do
  if ← isAt (.literal .template) then takeLiteral
  else
    let start ← tokenStart
    let head ← takeLiteral
    let spans ← repeating (templateSpanStep sub) []
    add .templateExpression start (.template head (.ofNodes spans.reverse))

/-! ### Brackets -/

def parenthesized : Parser Child := do
  let start ← tokenStart
  advance
  let value ← within .allowIn (expression sub)
  expectMark .closeParen
  add .parenthesized start (.parenthesized value)

/-- An expression, or dots and an expression whose elements are meant. -/
def spreadOrAssignment (k : NodeKind) : Parser Child := do
  if ← atMark .dotDotDot then
    let start ← tokenStart
    advance
    let value ← assignmentOrReport sub
    add k start (.spread value)
  else sub .assignment

def arrayStep (elements : List Child) : Parser (ForInStep (List Child)) := do
  let k ← kind
  if k = .mark .closeBracket || k = .endOfFile then return .done elements
  else if k = .mark .comma then return .yield ((← hole) :: elements)
  else
    let element ← spreadOrAssignment sub .spreadElement
    if element.isNone then
      reportHere .expressionExpected
      return .done elements
    else if ← acceptMark .comma then return .yield (element :: elements)
    else return .done (element :: elements)

def arrayLiteral : Parser Child := do
  let start ← tokenStart
  advance
  let elements ← within .allowIn (repeating (arrayStep sub) [])
  expectMark .closeBracket
  add .arrayLiteral start (.elements (.ofNodes elements.reverse) false)

/-! ### Objects -/

/-- A property that is named by a variable, which may have a value to fall back on. -/
def shorthandProperty (start : Nat) (name : Child) : Parser Child := do
  let hasEquals ← acceptMark .equals
  let value ← if hasEquals then assignmentOrReport sub else pure none
  add .shorthandProperty start (.shorthandProperty name hasEquals value)

def namedObjectMember (start : Nat) (marks : MethodMarks) (shorthand : Bool) (name : Child) :
    Parser Child := do
  if ← atMark .openParen then
    method sub (marks.kind .methodDeclaration) start none marks name
  else if ← acceptMark .colon then
    let value ← assignmentOrReport sub
    add .propertyAssignment start (.propertyAssignment name value)
  else if shorthand then shorthandProperty sub start name
  else
    expectMark .colon
    return none

def objectMember : Parser Child := do
  let start ← tokenStart
  if ← atMark .dotDotDot then spreadOrAssignment sub .spreadAssignment
  else
    let marks ← methodMarks
    let shorthand ← if marks.any then pure false else atIdentifier
    let name ← propertyName sub
    if name.isNone then
      reportHere .propertyAssignmentExpected
      return none
    else namedObjectMember sub start marks shorthand name

def objectMemberStep (members : List Child) : Parser (ForInStep (List Child)) := do
  let k ← kind
  if k = .mark .closeBrace || k = .endOfFile then return .done members
  else
    let member ← objectMember sub
    if member.isNone then return .done members
    else if ← acceptMark .comma then return .yield (member :: members)
    else return .done (member :: members)

def objectLiteral : Parser Child := do
  let brace ← tokenCursor
  expectMark .openBrace
  let members ← within .allowIn (repeating (objectMemberStep sub) [])
  expectMark .closeBrace
  add .objectLiteral brace.offset (.elements (.ofNodes members.reverse) (← spansLines brace))

/-! ### All together -/

/-- `import.meta`, or the word `import` in front of a call. -/
def importExpression : Parser Child := do
  let start ← tokenStart
  let stop ← tokenEnd
  advance
  if ← acceptMark .dot then
    let name ← identifierName
    add .metaProperty start (.metaProperty (.token (.word .importWord)) name)
  else
    unless ← atMark .openParen do expectMark .openParen
    addToken (.token (.word .importWord)) start stop

/-- A regular expression; its slash was read as an operator. -/
def regularExpression : Parser Child := do
  rescan Lexer.rescanSlash .unterminatedRegularExpression
  takeLiteral

def nameOrReport : Parser Child := do
  if ← atIdentifier then identifier
  else
    reportHere .expressionExpected
    return none

def primary : Parser Child := do
  match ← kind with
  | .literal .number | .literal .bigInt | .literal .string => takeLiteral
  | .literal .template | .literal .templateHead => template sub
  | .word .trueWord | .word .falseWord | .word .nullWord | .word .thisWord | .word .superWord =>
    takeToken
  | .mark .openParen => parenthesized sub
  | .mark .openBracket => arrayLiteral sub
  | .mark .openBrace => objectLiteral sub
  | .word .functionWord => functionExpression sub
  | .word .asyncWord =>
    if ← asyncFunctionAhead then functionExpression sub else nameOrReport
  | .word .classWord => classOf sub .classExpression true
  | .word .importWord => importExpression
  | .mark .slash | .mark .slashEquals => regularExpression
  | .privateIdentifier => identifierName
  | _ => nameOrReport

end PathGuard.Parser
