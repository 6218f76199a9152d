import PathGuard.Text.Cursor
import PathGuard.Text.Character
/-!
# Escape sequences

What follows a backslash in strings and templates, and the escapes of code points in names. A
sequence that is no escape still moves the cursor: past the digits that it began with, and in a
string past the character that it stands for.
-/

namespace PathGuard

def charOfCode? (code : Nat) : Option Char :=
  if code.isValidChar then some (Char.ofNat code) else none

/-- Reads at most `most` hexadecimal digits behind those that gave `value`; `count` of them were
read. The answer is the count, the value and the place behind. -/
def readHex : (most count value : Nat) → Cursor → Nat × Nat × Cursor
  | 0, count, value, c => (count, value, c)
  | most + 1, count, value, c =>
    match c.peek.bind hexValue? with
    | some digit => readHex most (count + 1) (value * 16 + digit) c.next
    | none => (count, value, c)

def readHexNumber (least most : Nat) (c : Cursor) : Option Nat × Cursor :=
  let (count, value, stop) := readHex most 0 0 c
  (if least ≤ count then some value else none, stop)

/-- What an escape stands for, if for a character, and where it stops. `unterminated` says that it
opened a brace and did not close it. -/
structure Escape where
  value : Option Char
  stop : Cursor
  unterminated : Bool
  deriving Repr, DecidableEq

/-- Reads the escape of a code point; the cursor stands behind the `u`. Either four digits follow
it, or one to six in braces. -/
def readCodePoint (c : Cursor) : Escape :=
  if c.peek = some '{' then
    let (code, stop) := readHexNumber 1 6 c.next
    if code.isSome && stop.peek = some '}' then ⟨code.bind charOfCode?, stop.next, false⟩
    else ⟨none, c, true⟩
  else
    let (code, stop) := readHexNumber 4 4 c
    ⟨code.bind charOfCode?, stop, false⟩

def letterEscape? : Char → Option Char
  | 'n' => some '\n'
  | 't' => some '\t'
  | 'r' => some '\r'
  | 'b' => some '\x08'
  | 'f' => some '\x0c'
  | 'v' => some '\x0b'
  | _ => none

/-- Reads an escape in a string or template; the cursor stands behind the backslash. A line end
behind the backslash stands for nothing, and a character without a meaning of its own for
itself. -/
def readEscape (c : Cursor) : Escape :=
  match c.peek with
  | none => ⟨none, c, false⟩
  | some ch =>
    let stop := c.next
    match letterEscape? ch with
    | some value => ⟨some value, stop, false⟩
    | none =>
      if ch = '0' && !stop.peek.any Char.isDigit then ⟨some '\x00', stop, false⟩
      else if ch = 'x' then
        match readHexNumber 2 2 stop with
        | (some code, stop) => ⟨charOfCode? code, stop, false⟩
        | (none, stop) => ⟨some 'x', stop, false⟩
      else if ch = 'u' then readCodePoint stop
      else if ch = '\r' then ⟨none, if stop.peek = some '\n' then stop.next else stop, false⟩
      else if ch = '\n' || ch = '\u2028' || ch = '\u2029' then ⟨none, stop, false⟩
      else ⟨some ch, stop, false⟩

end PathGuard
