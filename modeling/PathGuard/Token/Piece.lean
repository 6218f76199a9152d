import PathGuard.Token.Character
import PathGuard.Token.Escape
import PathGuard.Token.Flags
import PathGuard.Token.Kind
/-!
# Pieces of program text

`readPiece` reads the one piece of a text that begins at a cursor: a token, or a run of trivia.
Every piece but the end of the text takes at least one character.

Where one step may take several characters, the characters left at the beginning bound the number
of steps.
-/

namespace PathGuard

/-- A piece of text: what it is, where it stops, and its value: the characters of a name or of the
content of a literal. -/
structure Piece where
  kind : TokenKind
  stop : Cursor
  value : String
  flags : TokenFlags
  deriving Repr, DecidableEq

namespace Piece

def plain (kind : TokenKind) (stop : Cursor) : Piece := ⟨kind, stop, "", .none⟩

end Piece

/-! ### Trivia -/

def readLineComment (c : Cursor) : Piece :=
  .plain (.trivia .lineComment) (c.skipWhile fun ch => !(ch == '\n' || ch == '\r'))

/-- Finds the end of a block comment whose body goes on here: the place behind it, whether a line
ends in the body, and whether the end is missing. -/
def blockCommentEnd : (broken : Bool) → (offset : Nat) → List Char → Cursor × Bool × Bool
  | broken, offset, [] => (⟨offset, []⟩, broken, true)
  | broken, offset, '*' :: '/' :: rest => (⟨offset + 2, rest⟩, broken, false)
  | broken, offset, ch :: rest =>
    blockCommentEnd (broken || ch == '\n' || ch == '\r') (offset + ch.utf8Size) rest

def readBlockComment (c : Cursor) : Piece :=
  let body := c.skip 2
  let (stop, broken, open_) := blockCommentEnd false body.offset body.rest
  ⟨.trivia .blockComment, stop, "",
    { TokenFlags.none with precedingLineBreak := broken, unterminated := open_ }⟩

def readNewLine (c : Cursor) : Piece :=
  let stop := if c.peek = some '\r' && c.next.peek = some '\n' then c.skip 2 else c.next
  ⟨.trivia .newLine, stop, "", { TokenFlags.none with precedingLineBreak := true }⟩

def readWhitespace (c : Cursor) : Piece :=
  .plain (.trivia .whitespace) (c.skipWhile isInlineBlank)

/-! ### Names -/

structure Name where
  chars : List Char
  stop : Cursor
  escaped : Bool
  unterminated : Bool
  deriving Repr, DecidableEq

namespace Name

def push (ch : Char) (escaped : Bool) (name : Name) : Name :=
  { name with chars := ch :: name.chars, escaped := escaped || name.escaped }

end Name

/-- Reads the characters of a name as long as they or escapes follow each other. An escape that
stands for nothing ends the name; its digits still belong to the text of the token. -/
def readNameChars : (bound : List Char) → Cursor → Name
  | [], c => ⟨[], c, false, false⟩
  | _ :: bound, c =>
    match c.rest with
    | [] => ⟨[], c, false, false⟩
    | ch :: rest =>
      if isIdentifierPart ch then (readNameChars bound c.next).push ch false
      else if ch = '\\' && rest.head? = some 'u' then
        let escape := readCodePoint (c.skip 2)
        match escape.value with
        | some ch => (readNameChars bound escape.stop).push ch true
        | none => ⟨[], escape.stop, false, escape.unterminated⟩
      else ⟨[], c, false, false⟩

def readName (c : Cursor) : Name := readNameChars c.rest c

namespace Name

def flags (name : Name) : TokenFlags :=
  { TokenFlags.none with unicodeEscape := name.escaped, unterminated := name.unterminated }

end Name

def atCodePointEscape (text : List Char) : Bool := ['\\', 'u'].isPrefixOf text

def readIdentifier (c : Cursor) : Piece :=
  let name := readName c
  let value := String.ofList name.chars
  let kind :=
    if name.escaped then .identifier
    else
      match Keyword.ofText? value with
      | some k => .word k
      | none => .identifier
  ⟨kind, name.stop, value, name.flags⟩

def readPrivateIdentifier (c : Cursor) : Piece :=
  if c.next.peek.any isIdentifierStart then
    let name := readName c.next
    ⟨.privateIdentifier, name.stop, String.ofList name.chars, name.flags⟩
  else .plain .unknown c.next

/-! ### Strings and templates -/

structure Content where
  chars : List Char
  stop : Cursor
  unterminated : Bool
  deriving Repr, DecidableEq

namespace Content

def push (value : Option Char) (unterminated : Bool) (content : Content) : Content :=
  { content with
    chars := value.toList ++ content.chars
    unterminated := unterminated || content.unterminated }

end Content

/-- Reads the content of a string up to its closing quote. A line end or the end of the text ends
it too. -/
def readStringContent (quote : Char) : (bound : List Char) → Cursor → Content
  | [], c => ⟨[], c, true⟩
  | _ :: bound, c =>
    match c.peek with
    | none => ⟨[], c, true⟩
    | some ch =>
      if ch = '\n' || ch = '\r' then ⟨[], c, true⟩
      else if ch = quote then ⟨[], c.next, false⟩
      else if ch = '\\' then
        let escape := readEscape c.next
        (readStringContent quote bound escape.stop).push escape.value escape.unterminated
      else (readStringContent quote bound c.next).push (some ch) false

def readString (quote : Char) (c : Cursor) : Piece :=
  let content := readStringContent quote c.rest c.next
  ⟨.literal .string, content.stop, String.ofList content.chars,
    { TokenFlags.none with unterminated := content.unterminated }⟩

structure TemplatePiece where
  content : Content
  opens : Bool
  deriving Repr, DecidableEq

namespace TemplatePiece

def push (value : Option Char) (unterminated : Bool) (piece : TemplatePiece) : TemplatePiece :=
  { piece with content := piece.content.push value unterminated }

end TemplatePiece

/-- Reads template text up to the closing quote or the next substitution. Every line end counts as
a line feed. -/
def readTemplateContent : (bound : List Char) → Cursor → TemplatePiece
  | [], c => ⟨⟨[], c, true⟩, false⟩
  | _ :: bound, c =>
    match c.rest with
    | [] => ⟨⟨[], c, true⟩, false⟩
    | ch :: rest =>
      if ch = '\x60' then ⟨⟨[], c.next, false⟩, false⟩
      else if ch = '$' && rest.head? = some '{' then ⟨⟨[], c.skip 2, false⟩, true⟩
      else if ch = '\\' then
        let escape := readEscape c.next
        (readTemplateContent bound escape.stop).push escape.value escape.unterminated
      else if ch = '\r' then
        let stop := if rest.head? = some '\n' then c.skip 2 else c.next
        (readTemplateContent bound stop).push (some '\n') false
      else (readTemplateContent bound c.next).push (some ch) false

/-- The template text from the cursor on; `starts` says that a quote stands before it, and not the
end of a substitution. -/
def readTemplate (starts : Bool) (c : Cursor) : Piece :=
  let piece := readTemplateContent c.rest c
  let kind : LiteralKind :=
    match starts, piece.opens with
    | true, true => .templateHead
    | true, false => .template
    | false, true => .templateMiddle
    | false, false => .templateTail
  ⟨.literal kind, piece.content.stop, String.ofList piece.content.chars,
    { TokenFlags.none with unterminated := piece.content.unterminated }⟩

/-! ### Numbers -/

def isDigitOf (base : Nat) (c : Char) : Bool := (hexValue? c).any (· < base)

def skipDigits (base : Nat) (c : Cursor) : Cursor :=
  c.skipWhile fun ch => ch == '_' || isDigitOf base ch

def numberBase? (text : List Char) : Option Nat :=
  match text with
  | '0' :: mark :: _ =>
    if mark == 'x' || mark == 'X' then some 16
    else if mark == 'b' || mark == 'B' then some 2
    else if mark == 'o' || mark == 'O' then some 8
    else none
  | _ => none

/-- The exponent that begins at the cursor, if there is one: a digit must follow its sign. -/
def skipExponent? (c : Cursor) : Option Cursor :=
  if c.peek.any fun ch => ch == 'e' || ch == 'E' then
    let signed := c.next.peek.any fun ch => ch == '+' || ch == '-'
    let digits := if signed then c.skip 2 else c.next
    if digits.peek.any Char.isDigit then some (skipDigits 10 digits) else none
  else none

def skipDecimal (c : Cursor) : Cursor × Bool :=
  let whole := skipDigits 10 c
  let number := if whole.peek = some '.' then skipDigits 10 whole.next else whole
  match skipExponent? number with
  | some stop => (stop, true)
  | none => (number, false)

def readNumber (c : Cursor) : Piece :=
  let base := numberBase? c.rest
  let (digits, scientific) :=
    match base with
    | some base => (skipDigits base (c.skip 2), false)
    | none => skipDecimal c
  let big := digits.peek = some 'n'
  let stop := if big then digits.next else digits
  let text := c.textTo stop.offset
  ⟨.literal (if big then .bigInt else .number), stop,
    String.ofList (text.filter (· != '_')),
    { TokenFlags.none with
      scientific := scientific
      hexadecimal := base == some 16
      binary := base == some 2
      octal := base == some 8
      separator := text.contains '_' }⟩

/-! ### Marks, and all together -/

def readMark (c : Cursor) : Piece :=
  match Punctuator.longest? c.rest with
  | some p => .plain (.mark p) (c.skip p.chars.length)
  | none => .plain .unknown c.next

/-- Reads the piece that begins at the cursor. A text that begins with `#!` begins with a
comment. -/
def readPiece (c : Cursor) : Piece :=
  if c.offset = 0 && ['#', '!'].isPrefixOf c.rest then readLineComment c
  else
    match c.rest with
    | [] => .plain .endOfFile c
    | ch :: rest =>
      if isLineTerminator ch then readNewLine c
      else if isInlineBlank ch then readWhitespace c
      else if ch = '/' && rest.head? = some '/' then readLineComment c
      else if ch = '/' && rest.head? = some '*' then readBlockComment c
      else if ch = '"' || ch = '\'' then readString ch c
      else if ch = '\x60' then readTemplate true c.next
      else if ch.isDigit || (ch = '.' && rest.head?.any Char.isDigit) then readNumber c
      else if ch = '#' then readPrivateIdentifier c
      else if isIdentifierStart ch || atCodePointEscape c.rest then readIdentifier c
      else readMark c

end PathGuard
