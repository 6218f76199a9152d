/-!
# Reading positions

A `Cursor` is a place in a text: how many bytes of UTF-8 lie before it and which characters are
left to read. Byte counts and character lists are kept together, so that no position has to be
looked up in the text again.
-/

namespace PathGuard

def byteLength : List Char → Nat
  | [] => 0
  | c :: rest => c.utf8Size + byteLength rest

/-- What is left after exactly `n` bytes; nothing when the text ends earlier or when the count
falls inside a character. -/
def dropBytes : List Char → Nat → Option (List Char)
  | text, 0 => some text
  | [], _ + 1 => none
  | c :: rest, n + 1 =>
    if c.utf8Size ≤ n + 1 then dropBytes rest (n + 1 - c.utf8Size) else none

def takeBytes : List Char → Nat → Option (List Char)
  | _, 0 => some []
  | [], _ + 1 => none
  | c :: rest, n + 1 =>
    if c.utf8Size ≤ n + 1 then (takeBytes rest (n + 1 - c.utf8Size)).map (c :: ·) else none

def sliceBytes (text : List Char) (start stop : Nat) : Option (List Char) :=
  if start ≤ stop then (dropBytes text start).bind (takeBytes · (stop - start)) else none

/-- A place in a text. Where no character can be read, `rest` is empty: at the end of the text,
past it, and inside a character. -/
structure Cursor where
  offset : Nat
  rest : List Char
  deriving Repr, DecidableEq, Inhabited

namespace Cursor

def start (text : List Char) : Cursor := ⟨0, text⟩

def seek (text : List Char) (offset : Nat) : Cursor := ⟨offset, (dropBytes text offset).getD []⟩

def peek (c : Cursor) : Option Char := c.rest.head?

def next (c : Cursor) : Cursor :=
  match c.rest with
  | [] => c
  | ch :: rest => ⟨c.offset + ch.utf8Size, rest⟩

def nextByte (text : List Char) (c : Cursor) : Cursor :=
  match c.rest with
  | ch :: rest => if ch.utf8Size = 1 then ⟨c.offset + 1, rest⟩ else seek text (c.offset + 1)
  | [] => seek text (c.offset + 1)

def skip : Nat → Cursor → Cursor
  | 0, c => c
  | n + 1, c => skip n c.next

def skipRun (p : Char → Bool) : Nat → List Char → Cursor
  | offset, [] => ⟨offset, []⟩
  | offset, ch :: rest =>
    if p ch then skipRun p (offset + ch.utf8Size) rest else ⟨offset, ch :: rest⟩

def skipWhile (p : Char → Bool) (c : Cursor) : Cursor := skipRun p c.offset c.rest

/-- The text from the cursor up to the byte offset `stop`, empty when `stop` is no end of a
character after the cursor. -/
def textTo (c : Cursor) (stop : Nat) : List Char :=
  if c.offset ≤ stop then (takeBytes c.rest (stop - c.offset)).getD [] else []

theorem next_of_cons {c : Cursor} {ch : Char} {rest : List Char} (h : c.rest = ch :: rest) :
    c.next = ⟨c.offset + ch.utf8Size, rest⟩ := by
  simp [next, h]

theorem length_next_le (c : Cursor) : c.next.rest.length ≤ c.rest.length := by
  unfold next
  split
  · exact Nat.le_refl _
  · next ch rest h => simp [h]

end Cursor

end PathGuard
