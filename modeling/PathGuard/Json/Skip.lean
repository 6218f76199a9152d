import PathGuard.Json.Number
import PathGuard.Json.Quoted
/-!
# Values that are not read

A value that nobody asks for is passed by, and one that stands where another kind of value is wanted
is a fault. The lists and objects around the place are kept in a list of frames, so a value may lie
in any number of them.
-/

namespace PathGuard

namespace Json

inductive Frame where
  | list | object
  deriving DecidableEq, Repr

namespace Frame

def close : Frame → Char
  | list => ']'
  | object => '\x7d'

end Frame

def skipScalar : List Char → Result (List Char)
  | [] => .error .endOfText
  | 'n' :: rest => expectWord ['u', 'l', 'l'] rest
  | 't' :: rest => expectWord ['r', 'u', 'e'] rest
  | 'f' :: rest => expectWord ['a', 'l', 's', 'e'] rest
  | '-' :: rest => skipNumber rest
  | '"' :: rest => skipString rest
  | c :: rest => if c.isDigit then skipNumber (c :: rest) else .error .syntaxFault

def skipKey (frame : Frame) (item : List Char) : Result (List Char) :=
  match frame with
  | .list => .ok item
  | .object =>
    match skipGap item with
    | [] => .error .endOfText
    | '"' :: rest => do expectColon (← skipString rest)
    | _ => .error .syntaxFault

/-- Where passing by has come to: before a value, or behind one. -/
inductive SkipPlace where
  | before | behind
  deriving DecidableEq, Repr

def skipStep : SkipPlace → List Frame → List Char → Result (SkipPlace × List Frame × List Char)
  | .before, frames, text =>
    match skipGap text with
    | '[' :: rest => enter .list frames rest
    | '\x7b' :: rest => enter .object frames rest
    | text => do return (.behind, frames, ← skipScalar text)
  | .behind, [], text => .ok (.behind, [], text)
  | .behind, frame :: frames, text =>
    match skipGap text with
    | [] => .error .endOfText
    | c :: rest =>
      if c = ',' then do return (.before, frame :: frames, ← skipKey frame rest)
      else if c = frame.close then .ok (.behind, frames, rest)
      else .error .syntaxFault
where
  enter (frame : Frame) (frames : List Frame) (text : List Char) :
      Result (SkipPlace × List Frame × List Char) :=
    match skipGap text with
    | [] => .error .endOfText
    | c :: rest =>
      if c = frame.close then .ok (.behind, frames, rest)
      else do return (.before, frame :: frames, ← skipKey frame (c :: rest))

def skipWithin : (fuel : Nat) → SkipPlace → List Frame → List Char → Result (List Char)
  | 0, _, _, _ => .error .syntaxFault
  | _ + 1, .behind, [], text => .ok text
  | fuel + 1, place, frames, text => do
    let (place, frames, text) ← skipStep place frames text
    skipWithin fuel place frames text

/-- Passes by a value. Every step but the last leaves less of the text. -/
def skipValue (text : List Char) : Result (List Char) :=
  skipWithin (text.length + 2) .before [] text

/-- The fault of what stands where a value of another kind is wanted. Only what is needed to tell its
kind is read. -/
def mismatch : List Char → Fault
  | [] => .endOfText
  | '[' :: _ | '\x7b' :: _ => .data
  | '-' :: rest => numberFault rest
  | '"' :: rest =>
    match readString rest with
    | .error fault => fault
    | .ok _ => .data
  | c :: rest =>
    if c.isDigit then numberFault (c :: rest)
    else
      match skipScalar (c :: rest) with
      | .error fault => fault
      | .ok _ => .data

end Json

end PathGuard
