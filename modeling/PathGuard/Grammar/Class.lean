import PathGuard.Grammar.Block
/-!
# Classes
-/

namespace PathGuard.Parser

variable (sub : PhraseParser)

def staticBlock (start : Nat) : Parser Child := do
  advance
  within .ofMember (blockFrom sub .staticBlock start)

def atConstructorName : Parser Bool := do
  match ← kind with
  | .identifier | .literal .string => return (← tokenValue) == "constructor"
  | _ => return false

def field (start : Nat) (modifiers : Option NodeList) (marks : MethodMarks) (name : Child) :
    Parser Child := do
  if marks.any then expectMark .openParen
  let value ← do
    if ← acceptMark .equals then within .ofMember (assignmentOrReport sub) else pure none
  endStatement
  add .propertyDeclaration start (.propertyDeclaration modifiers name value)

def namedMember (start : Nat) (modifiers : List Child) : Parser Child := do
  let marks ← methodMarks
  let isConstructor ← do
    if modifiers.isEmpty && marks.accessor.isNone then atConstructorName else pure false
  let name ← propertyName sub
  if name.isNone then return none
  else
    let modifiers := if modifiers.isEmpty then none else some (.ofNodes modifiers)
    if ← atMark .openParen then
      let plain := if isConstructor then .constructorDeclaration else .methodDeclaration
      method sub (marks.kind plain) start modifiers marks name
    else field sub start modifiers marks name

def classMember : Parser Child := do
  let start ← tokenStart
  let isStatic ← if ← atWord .staticWord then atMemberMark else pure false
  if isStatic then
    if (← peek).1 = .mark .openBrace then staticBlock sub start
    else
      let modifier ← addToken (.token (.word .staticWord)) start (← tokenEnd)
      advance
      namedMember sub start [modifier]
  else namedMember sub start []

/-- One more member, or a semicolon. A token that begins no member is skipped. -/
def memberStep (members : List Child) : Parser (ForInStep (List Child)) := do
  let k ← kind
  if k = .mark .closeBrace || k = .endOfFile then return .done members
  else if ← acceptMark .semicolon then return .yield members
  else
    let start ← tokenStart
    let member ← classMember sub
    if member.isSome then return .yield (member :: members)
    else
      if (← tokenStart) = start then advance
      return .yield members

def heritage : Parser Child := do
  if ← acceptWord .extendsWord then
    let parent ← sub .leftHandSide
    if parent.isNone then reportHere .expressionExpected
    return parent
  else return none

/-- A class. A declaration needs a name, unless it is a default export. -/
def classOf (k : NodeKind) (nameOptional : Bool) : Parser Child := do
  let start ← tokenStart
  expectWord .classWord
  let name ← do
    if ← atIdentifier then identifier
    else
      if k = .classDeclaration && !nameOptional then reportHere .identifierExpected
      pure none
  let parent ← heritage sub
  let membersStart ← tokenStart
  expectMark .openBrace
  let members ← repeating (memberStep sub) []
  expectMark .closeBrace
  let members ← rowFrom membersStart members.reverse false
  add k start (.classLike name parent members)

end PathGuard.Parser
