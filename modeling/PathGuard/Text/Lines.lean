import PathGuard.Text.Cursor
/-!
# Lines

Where the lines of a text begin, and what line and column a byte offset lies in. A line ends with a
line feed, a carriage return, or both in this order.
-/

namespace PathGuard

/-- A line and a place in it, both counted from zero; places are counted in characters. -/
structure Position where
  line : Nat
  character : Nat
  deriving DecidableEq, Repr, Inhabited

/-- Where lines begin behind the line breaks of a text that has `offset` bytes before it, added to
`starts`. -/
def addLineStarts (starts : Array Nat) (offset : Nat) : List Char → Array Nat
  | [] => starts
  | '\r' :: '\n' :: rest => addLineStarts (starts.push (offset + 2)) (offset + 2) rest
  | c :: rest =>
    if c = '\n' || c = '\r' then addLineStarts (starts.push (offset + 1)) (offset + 1) rest
    else addLineStarts starts (offset + c.utf8Size) rest

structure LineMap where
  text : List Char
  starts : Array Nat
  deriving Repr, Inhabited

namespace LineMap

def ofText (text : List Char) : LineMap := ⟨text, addLineStarts #[0] 0 text⟩

def lineCount (m : LineMap) : Nat := m.starts.size

def lineStart? (m : LineMap) (line : Nat) : Option Nat := m.starts[line]?

def lineAt (m : LineMap) (offset : Nat) : Nat := m.starts.countP (· ≤ offset) - 1

/-- Line and column of an offset. An offset behind the end counts as the end, and one inside of a
character as the beginning of its line. -/
def position (m : LineMap) (offset : Nat) : Position :=
  let line := m.lineAt offset
  let stop := min offset (byteLength m.text)
  let start := min ((m.lineStart? line).getD 0) stop
  ⟨line, ((sliceBytes m.text start stop).getD []).length⟩

def lineText (m : LineMap) (line : Nat) : List Char :=
  match m.lineStart? line with
  | none => []
  | some start =>
    let stop := (m.lineStart? (line + 1)).getD (byteLength m.text)
    (((sliceBytes m.text start stop).getD []).reverse.dropWhile
      fun c => c = '\n' || c = '\r').reverse

end LineMap

end PathGuard
