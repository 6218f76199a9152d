import PathGuard.Token.Piece
/-!
# The lexer

A `Lexer` stands at one token of a text and moves to the next one on demand. A slash and a closing
brace mean different things in different places; whoever knows the place may ask for the current
token to be read again. Keeping a lexer and going on from it later is all that is needed to look
ahead.
-/

namespace PathGuard

/-- A token as it lies in the text. `fullStart` is where the trivia before it begins. -/
structure Token where
  kind : TokenKind
  fullStart : Nat
  start : Nat
  stop : Nat
  flags : TokenFlags
  value : String
  text : String
  deriving Repr, DecidableEq

/-- A place in a text, with the token read last: its kind, value and flags, where it begins, and
where the reading goes on. -/
structure Lexer where
  text : List Char
  skipTrivia : Bool
  fullStart : Nat
  first : Cursor
  here : Cursor
  kind : TokenKind
  value : String
  flags : TokenFlags
  deriving Repr, DecidableEq

namespace Lexer

def start (text : List Char) (skipTrivia : Bool) : Lexer where
  text := text
  skipTrivia := skipTrivia
  fullStart := 0
  first := .start text
  here := .start text
  kind := .unknown
  value := ""
  flags := .none

/-- Reads pieces from the cursor on until one is no trivia, as many as `bound` has characters. The
answer is the place where that one begins, the piece, and the flags of the trivia before it. -/
def skipPieces : (bound : List Char) → Cursor → TokenFlags → Cursor × Piece × TokenFlags
  | [], c, flags => (c, readPiece c, flags)
  | _ :: bound, c, flags =>
    let piece := readPiece c
    if piece.kind.isTrivia then skipPieces bound piece.stop (flags.union piece.flags)
    else (c, piece, flags)

def scan (l : Lexer) : Lexer :=
  let (first, piece, skipped) :=
    if l.skipTrivia then skipPieces l.here.rest l.here .none
    else (l.here, readPiece l.here, .none)
  { l with
    fullStart := l.here.offset
    first := first
    here := piece.stop
    kind := piece.kind
    value := piece.value
    flags := skipped.union piece.flags }

def tokenText (l : Lexer) : String := String.ofList (l.first.textTo l.here.offset)

/-- Reads the rest of a template from the second byte of the current token on, which should be the
brace that closes a substitution. -/
def rescanTemplate (l : Lexer) : Lexer :=
  let piece := readTemplate false (l.first.nextByte l.text)
  { l with
    here := piece.stop
    kind := piece.kind
    value := piece.value
    flags := l.flags.union piece.flags }

/-- Finds the end of a regular expression's body: the place behind the closing slash, and whether
that slash is missing. A slash in a class or behind a backslash closes nothing. -/
def regularExpressionEnd : (inClass : Bool) → (offset : Nat) → List Char → Cursor × Bool
  | _, offset, [] => (⟨offset, []⟩, true)
  | inClass, offset, ch :: rest =>
    if isLineTerminator ch then (⟨offset, ch :: rest⟩, true)
    else if ch = '\\' then
      match rest with
      | [] => (⟨offset + ch.utf8Size, []⟩, true)
      | escaped :: after =>
        if isLineTerminator escaped then (⟨offset + ch.utf8Size, escaped :: after⟩, true)
        else regularExpressionEnd inClass (offset + ch.utf8Size + escaped.utf8Size) after
    else if ch = '/' && !inClass then (⟨offset + ch.utf8Size, rest⟩, false)
    else
      regularExpressionEnd (if ch = '[' then true else if ch = ']' then false else inClass)
        (offset + ch.utf8Size) rest

/-- Reads a slash, or a slash with an equals sign, again as a regular expression with its flags.
Another token stays as it is. -/
def rescanSlash (l : Lexer) : Lexer :=
  if l.kind = .mark .slash || l.kind = .mark .slashEquals then
    let body := l.first.next
    let (stop, unterminated) := regularExpressionEnd false body.offset body.rest
    let here := stop.skipWhile isIdentifierPart
    { l with
      here := here
      kind := .literal .regularExpression
      value := String.ofList (l.first.textTo here.offset)
      flags := l.flags.union { TokenFlags.none with unterminated := unterminated } }
  else l

def token (l : Lexer) : Token where
  kind := l.kind
  fullStart := l.fullStart
  start := l.first.offset
  stop := l.here.offset
  flags := l.flags
  value := l.value
  text := l.tokenText

def tokensWithin : (fuel : Nat) → Lexer → List Token
  | 0, _ => []
  | fuel + 1, l =>
    let l := l.scan
    if l.kind = .endOfFile then [l.token] else l.token :: tokensWithin fuel l

end Lexer

def tokensOf (text : String) (skipTrivia : Bool) : List Token :=
  Lexer.tokensWithin (text.length + 1) (.start text.toList skipTrivia)

end PathGuard
