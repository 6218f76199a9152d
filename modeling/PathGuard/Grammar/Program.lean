import PathGuard.Grammar.Module
/-!
# Programs

The rules of the grammar tied together, and the parsing of a whole text. Every text has a tree:
what cannot be parsed is noted as a problem and left out.
-/

namespace PathGuard

namespace Parser

variable (sub : PhraseParser)

def labeledOrExpression : Parser Child := do
  let labeled ← if ← atIdentifier then pure ((← peek).1 == .mark .colon) else pure false
  if labeled then labeledStatement sub else expressionStatement sub

def statementHere : Parser Child := do
  match ← kind with
  | .mark .openBrace => block sub
  | .mark .semicolon => emptyStatement
  | .word .varWord | .word .constWord => variableStatement sub
  | .word .letWord =>
    if ← letDeclarationAhead then variableStatement sub else labeledOrExpression sub
  | .word .functionWord => functionDeclaration sub false
  | .word .asyncWord =>
    if ← asyncFunctionAhead then functionDeclaration sub false else labeledOrExpression sub
  | .word .classWord => classOf sub .classDeclaration false
  | .word .ifWord => ifStatement sub
  | .word .doWord => doStatement sub
  | .word .whileWord => whileStatement sub
  | .word .forWord => forStatement sub
  | .word .continueWord => jumpStatement .continueStatement
  | .word .breakWord => jumpStatement .breakStatement
  | .word .returnWord => returnOrThrow sub .returnStatement
  | .word .throwWord => returnOrThrow sub .throwStatement
  | .word .tryWord => tryStatement sub
  | .word .switchWord => switchStatement sub
  | .word .debuggerWord => debuggerStatement
  | .word .importWord =>
    if ← importExpressionAhead then expressionStatement sub else importDeclaration sub
  | .word .exportWord => exportDeclaration sub
  | _ => labeledOrExpression sub

def statement : Parser Child := nested (statementHere sub)

def rule : Phrase → Parser Child
  | .statement => statement sub
  | .assignment => assignment sub
  | .unary => unary sub
  | .binary least => binary sub least
  | .leftHandSide => leftHandSide sub
  | .newExpression => newExpression sub
  | .binding => binding sub

/-- Every phrase, with at most `fuel` phrases inside each other. -/
def phrase : (fuel : Nat) → Phrase → Parser Child
  | 0, _ => return none
  | fuel + 1, p => rule (phrase fuel) p

/-- A whole text. A phrase inside another one is either one level deeper or begins at a later
token, so the fuel is enough. -/
def program (fileName : String) (text : List Char) : Parser Child := do
  advance
  let statements ← statementList (phrase (text.length + maxDepth + 2)) fun _ => false
  let stop := byteLength text
  let endOfFile ← addToken (.token .endOfFile) stop stop
  addSpanned .sourceFile 0 stop (.sourceFile statements endOfFile fileName)

end Parser

/-- A text as a tree, with its problems in the order in which they were found. -/
structure ParsedFile where
  root : Child
  tree : Tree
  problems : List Problem
  deriving Repr

def parseFile (fileName source : String) : ParsedFile :=
  let text := source.toList
  let (root, s) := (Parser.program fileName text).run (.start text)
  ⟨root, s.tree, s.problems.reverse⟩

end PathGuard
