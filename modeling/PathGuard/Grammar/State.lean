import PathGuard.Grammar.Problem
import PathGuard.Token.Lexer
import PathGuard.Tree.Basic
/-!
# The state of parsing

A parser reads tokens, adds nodes to the tree and notes problems. It never fails: where something
is missing it says so, and goes on with a missing part. Only the operations here touch the state;
the grammar is written in terms of them.
-/

namespace PathGuard

/-- What the place of an expression means for it: whether `await` and `yield` are operators, and
whether `in` is none. -/
structure Context where
  isAsync : Bool
  isGenerator : Bool
  forbidsIn : Bool
  deriving DecidableEq, Repr, Inhabited

namespace Context

def ofFunction (isAsync isGenerator : Bool) : Context := ⟨isAsync, isGenerator, false⟩

/-- The expression that is the body of an arrow function; it stays under the ban on `in`. -/
def ofArrowBody (isAsync : Bool) (outer : Context) : Context := ⟨isAsync, false, outer.forbidsIn⟩

def ofMember (outer : Context) : Context := ⟨false, false, outer.forbidsIn⟩

def allowIn (outer : Context) : Context := { outer with forbidsIn := false }

def forbidIn (outer : Context) : Context := { outer with forbidsIn := true }

end Context

def maxDepth : Nat := 500

/-- Where parsing stands: at which token, where the token before it ended, where a problem was
noted last, which ones were noted, last one first, the tree so far, the context and the depth of
nesting. Two parts record how the parser came here, and no rule of the grammar looks at them: the
`readings` are the lexer as each reading of a token left it, last one first, and `deepest` is the
greatest depth so far. -/
structure ParserState where
  lexer : Lexer
  previousEnd : Nat
  lastProblem : Option Nat
  problems : List Problem
  tree : Tree
  context : Context
  depth : Nat
  readings : List Lexer
  deepest : Nat
  deriving Repr

namespace ParserState

/-- Before the first token of a module. `await` is an operator at the top of a module. -/
def start (text : List Char) : ParserState where
  lexer := .start text true
  previousEnd := 0
  lastProblem := none
  problems := []
  tree := .empty
  context := ⟨true, false, false⟩
  depth := 0
  readings := []
  deepest := 0

def deeper (s : ParserState) : ParserState :=
  { s with depth := s.depth + 1, deepest := max s.deepest (s.depth + 1) }

end ParserState

abbrev Parser := StateM ParserState

namespace Parser

/-! ### The current token -/

def kind : Parser TokenKind := fun s => (s.lexer.kind, s)

def tokenStart : Parser Nat := fun s => (s.lexer.first.offset, s)

def tokenCursor : Parser Cursor := fun s => (s.lexer.first, s)

def tokenEnd : Parser Nat := fun s => (s.lexer.here.offset, s)

def tokenValue : Parser String := fun s => (s.lexer.value, s)

def tokenText : Parser String := fun s => (s.lexer.tokenText, s)

def afterLineBreak : Parser Bool := fun s => (s.lexer.flags.precedingLineBreak, s)

def unterminated : Parser Bool := fun s => (s.lexer.flags.unterminated, s)

def context : Parser Context := fun s => (s.context, s)

def isAt (k : TokenKind) : Parser Bool := return (← kind) == k

def atMark (p : Punctuator) : Parser Bool := isAt (.mark p)

def atWord (k : Keyword) : Parser Bool := isAt (.word k)

/-- Whether a token of a kind is a name in a context: an identifier, or a contextual word that is
no operator there. -/
def isNameIn (c : Context) : TokenKind → Bool
  | .identifier => true
  | .word .awaitWord => !c.isAsync
  | .word .yieldWord => !c.isGenerator
  | k => k.isContextualWord

def atIdentifier : Parser Bool := return isNameIn (← context) (← kind)

/-! ### Problems -/

/-- Notes a problem, unless the last one was noted at the same place. -/
def report (start length : Nat) (cause : SyntaxError) : Parser Unit :=
  modify fun s =>
    if s.lastProblem = some start then s
    else { s with lastProblem := some start, problems := ⟨start, length, cause⟩ :: s.problems }

def reportHere (cause : SyntaxError) : Parser Unit := do
  let start ← tokenStart
  report start ((← tokenEnd) - start) cause

/-! ### Moving on -/

def tokenProblem? (k : TokenKind) (unterminated : Bool) : Option SyntaxError :=
  match k with
  | .unknown => some .invalidCharacter
  | .literal .string => if unterminated then some .unterminatedString else none
  | .literal .template | .literal .templateHead =>
    if unterminated then some .unterminatedTemplate else none
  | _ => none

/-- Moves to the next token without looking at what it is; for looking ahead. -/
def skip : Parser Unit := modify fun s => { s with lexer := s.lexer.scan }

def recordReading : Parser Unit := modify fun s => { s with readings := s.lexer :: s.readings }

def advance : Parser Unit := do
  modify fun s => { s with previousEnd := s.lexer.here.offset, lexer := s.lexer.scan }
  recordReading
  let start ← tokenStart
  let length := (← tokenEnd) - start
  let k ← kind
  match tokenProblem? k (← unterminated) with
  | some cause => report start (if k = .unknown then max length 1 else length) cause
  | none => pure ()

def reread (change : Lexer → Lexer) : Parser Unit :=
  modify fun s => { s with lexer := change s.lexer }

def rescan (change : Lexer → Lexer) (cause : SyntaxError) : Parser Unit := do
  reread change
  recordReading
  if ← unterminated then reportHere cause

/-- Goes on with `act` for its answer alone: afterwards the lexer is where it was. -/
def lookAhead {α : Type} (act : Parser α) : Parser α := do
  let saved ← (fun s => (s.lexer, s) : Parser Lexer)
  let answer ← act
  modify fun s => { s with lexer := saved }
  return answer

def peek : Parser (TokenKind × Bool) := lookAhead do
  skip
  return (← kind, ← afterLineBreak)

def accept (k : TokenKind) : Parser Bool := do
  if ← isAt k then
    advance
    return true
  else return false

def acceptMark (p : Punctuator) : Parser Bool := accept (.mark p)

def acceptWord (k : Keyword) : Parser Bool := accept (.word k)

def expect (k : TokenKind) : Parser Unit := do
  unless ← accept k do reportHere (.tokenExpected k)

def expectMark (p : Punctuator) : Parser Unit := expect (.mark p)

def expectWord (k : Keyword) : Parser Unit := expect (.word k)

/-- Whether a statement may end before the current token without a semicolon, or with it. -/
def atStatementEnd : Parser Bool := do
  let k ← kind
  return k == .mark .semicolon || k == .mark .closeBrace || k == .endOfFile || (← afterLineBreak)

def endStatement : Parser Unit := do
  unless ← acceptMark .semicolon do
    unless ← atStatementEnd do expectMark .semicolon

/-- Moves past the current token, unless it is the end, and answers with a missing part. -/
def skipAsMissing : Parser Child := do
  unless ← isAt .endOfFile do advance
  return none

/-! ### Context and depth -/

def within {α : Type} (change : Context → Context) (act : Parser α) : Parser α := do
  let outer ← context
  modify fun s => { s with context := change s.context }
  let answer ← act
  modify fun s => { s with context := outer }
  return answer

/-- Runs `act` one level deeper. At the greatest depth it is not run: the current token is skipped
instead. -/
def nested (act : Parser Child) : Parser Child := do
  let depth ← (fun s => (s.depth, s) : Parser Nat)
  if maxDepth ≤ depth then
    reportHere .nestingTooDeep
    skipAsMissing
  else
    modify ParserState.deeper
    let answer ← act
    modify fun s => { s with depth := s.depth - 1 }
    return answer

/-! ### Repetition -/

def repeatWithin {σ : Type} (step : σ → Parser (ForInStep σ)) : (bound : List Char) → σ → Parser σ
  | [], acc => do
    match ← step acc with
    | .done acc | .yield acc => pure acc
  | _ :: bound, acc => do
    match ← step acc with
    | .done acc => pure acc
    | .yield acc => repeatWithin step bound acc

def textLeft : Parser (List Char) := fun s => (s.lexer.first.rest, s)

/-- Runs `step` again and again until it is done. A step that is not done has to move past a token,
so the text from the current token on bounds their number. -/
def repeating {σ : Type} (step : σ → Parser (ForInStep σ)) (acc : σ) : Parser σ := do
  repeatWithin step (← textLeft) acc

/-! ### Nodes -/

def previousEnd : Parser Nat := fun s => (s.previousEnd, s)

def growing (grow : Tree → NodeId × Tree) : Parser Child := fun s =>
  match s with
  | ⟨lexer, previousEnd, lastProblem, problems, tree, context, depth, readings, deepest⟩ =>
    let (id, tree) := grow tree
    (some id, ⟨lexer, previousEnd, lastProblem, problems, tree, context, depth, readings, deepest⟩)

def addToken (k : NodeKind) (start stop : Nat) : Parser Child :=
  growing fun tree => tree.addToken k start stop

def addSpanned (k : NodeKind) (start stop : Nat) (record : Record) : Parser Child :=
  growing fun tree => tree.add k 0 start stop record

/-- Adds a node that ends where the last token ended. -/
def addFlagged (k : NodeKind) (flags start : Nat) (record : Record) : Parser Child := do
  let stop ← previousEnd
  growing fun tree => tree.add k flags start stop record

def add (k : NodeKind) (start : Nat) (record : Record) : Parser Child := addFlagged k 0 start record

def addBare (k : NodeKind) (start : Nat) : Parser Child := do
  addToken k start (← previousEnd)

def rowFrom (start : Nat) (nodes : List Child) (trailingComma : Bool) : Parser NodeList :=
  fun s => (⟨nodes, start, s.previousEnd, trailingComma⟩, s)

def spansLines (start : Cursor) : Parser Bool := fun s =>
  ((start.textTo s.previousEnd).contains '\n', s)

end Parser

end PathGuard
