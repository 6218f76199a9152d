import PathGuard.Grammar.Statement
/-!
# Imports and exports
-/

namespace PathGuard.Parser

variable (sub : PhraseParser)

/-! ### What both have -/

def exportName : Parser Child := do
  let k ← kind
  if k = .literal .string then takeLiteral
  else if k.isIdentifierOrWord then identifierName
  else
    reportHere .identifierExpected
    return none

def specifierStep (k : NodeKind) (specifiers : List Child) :
    Parser (ForInStep (List Child)) := do
  let t ← kind
  if t = .mark .closeBrace || t = .endOfFile then return .done specifiers
  else
    let start ← tokenStart
    let first ← exportName
    if first.isNone then return .done specifiers
    else
      let (property, name) ← do
        if ← acceptWord .asWord then pure (first, ← exportName) else pure (none, first)
      let specifier ← add k start (.specifier property name)
      if ← acceptMark .comma then return .yield (specifier :: specifiers)
      else return .done (specifier :: specifiers)

def specifiers (list specifier : NodeKind) : Parser Child := do
  let start ← tokenStart
  expectMark .openBrace
  let elements ← repeating (specifierStep specifier) []
  expectMark .closeBrace
  add list start (.namedBindings none (.ofNodes elements.reverse))

def moduleSpecifier : Parser Child := do
  if ← isAt (.literal .string) then takeLiteral
  else
    reportHere .stringLiteralExpected
    return none

/-- Attributes behind the name of a module; they are read and left out of the tree. -/
def importAttributes : Parser Unit := do
  if ← atWord .withWord then
    unless ← afterLineBreak do
      advance
      let _ ← objectLiteral sub

/-! ### Imports -/

def namespaceImport : Parser Child := do
  let start ← tokenStart
  advance
  expectWord .asWord
  let name ← identifier
  add .namespaceImport start (.namedBindings name (.ofNodes []))

def importBindings (name : Child) : Parser Child := do
  match ← kind with
  | .mark .asterisk => namespaceImport
  | .mark .openBrace => specifiers .namedImports .importSpecifier
  | _ =>
    if name.isNone then reportHere .identifierExpected
    return none

def importClause : Parser Child := do
  let start ← tokenStart
  let name ← if ← atIdentifier then identifier else pure none
  let more ← if name.isNone then pure true else acceptMark .comma
  let bindings ← if more then importBindings name else pure none
  add .importClause start (.importClause name bindings)

def importDeclaration : Parser Child := do
  let start ← tokenStart
  advance
  let clause ← do
    if ← isAt (.literal .string) then pure none
    else
      let clause ← importClause
      expectWord .fromWord
      pure clause
  let specifier ← moduleSpecifier
  importAttributes sub
  endStatement
  add .importDeclaration start (.importDeclaration clause specifier)

/-! ### Exports -/

def exportAssignment : Parser Child := do
  let start ← tokenStart
  let value ← assignmentOrReport sub
  endStatement
  add .exportAssignment start (.exportAssignment value)

def defaultExport : Parser Child := do
  match ← kind with
  | .word .functionWord => functionDeclaration sub true
  | .word .asyncWord =>
    if ← asyncFunctionAhead then functionDeclaration sub true else exportAssignment sub
  | .word .classWord => classOf sub .classDeclaration true
  | _ => exportAssignment sub

def exportAll : Parser (Child × Child) := do
  let start ← tokenStart
  advance
  let clause ← do
    if ← acceptWord .asWord then
      let name ← exportName
      add .namespaceExport start (.namedBindings name (.ofNodes []))
    else pure none
  expectWord .fromWord
  let specifier ← moduleSpecifier
  importAttributes sub
  endStatement
  return (clause, specifier)

def exportNamed : Parser (Child × Child) := do
  let clause ← specifiers .namedExports .exportSpecifier
  let specifier ← do
    if ← acceptWord .fromWord then
      let specifier ← moduleSpecifier
      importAttributes sub
      pure specifier
    else pure none
  endStatement
  return (clause, specifier)

def exportedDeclaration : Parser Child := do
  match ← kind with
  | .word .varWord | .word .letWord | .word .constWord | .word .functionWord | .word .asyncWord
  | .word .classWord => sub .statement
  | _ =>
    reportHere .statementExpected
    return none

def exportDeclaration : Parser Child := do
  let start ← tokenStart
  advance
  let isDefault ← acceptWord .defaultWord
  let (clause, specifier) ← do
    if isDefault then pure (← defaultExport sub, none)
    else
      match ← kind with
      | .mark .asterisk => exportAll sub
      | .mark .openBrace => exportNamed sub
      | _ => pure (← exportedDeclaration sub, none)
  add .exportDeclaration start (.exportDeclaration isDefault clause specifier)

end PathGuard.Parser
