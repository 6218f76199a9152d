import PathGuard.Json.Basic
import PathGuard.Text.Cursor
import PathGuard.Text.Character
/-!
# Strings in JSON

A string can be read for its value, or passed by. Escapes of UTF-16 halves must come in pairs where
the value is wanted, and only there.
-/

namespace PathGuard

namespace Json

/-- The number that four hexadecimal digits write. Four bytes must be left, else the text counts as
ended. -/
def hexEscape (text : List Char) : Result (Nat × List Char) :=
  if byteLength (text.take 4) < 4 then .error .endOfText
  else
    match (text.take 4).mapM hexValue? with
    | some [a, b, c, d] => .ok (((a * 16 + b) * 16 + c) * 16 + d, text.drop 4)
    | _ => .error .syntaxFault

def simpleEscape? : Char → Option Char
  | '"' => some '"'
  | '\\' => some '\\'
  | '/' => some '/'
  | 'b' => some '\x08'
  | 'f' => some '\x0c'
  | 'n' => some '\n'
  | 'r' => some '\r'
  | 't' => some '\t'
  | _ => none

def isLeadingHalf (n : Nat) : Bool := 0xd800 ≤ n && n ≤ 0xdbff

def isTrailingHalf (n : Nat) : Bool := 0xdc00 ≤ n && n ≤ 0xdfff

def expectChar (expected : Char) : List Char → Result (List Char)
  | [] => .error .endOfText
  | c :: rest => if c = expected then .ok rest else .error .syntaxFault

def unicodeEscape (text : List Char) : Result (Char × List Char) := do
  let (first, rest) ← hexEscape text
  if isTrailingHalf first then throw .syntaxFault
  else if isLeadingHalf first then
    let (second, rest) ← hexEscape (← expectChar 'u' (← expectChar '\\' rest))
    if isTrailingHalf second then
      return (Char.ofNat (0x10000 + (first - 0xd800) * 0x400 + (second - 0xdc00)), rest)
    else throw .syntaxFault
  else return (Char.ofNat first, rest)

/-- Reads a string behind its opening quote; `value` are its characters so far, the last first. -/
def readStringWithin : (fuel : Nat) → (value text : List Char) → Result (String × List Char)
  | 0, _, _ => .error .endOfText
  | _ + 1, _, [] => .error .endOfText
  | fuel + 1, value, c :: rest =>
    if c = '"' then .ok (String.ofList value.reverse, rest)
    else if c = '\\' then
      match rest with
      | [] => .error .endOfText
      | 'u' :: rest => do
        let (decoded, rest) ← unicodeEscape rest
        readStringWithin fuel (decoded :: value) rest
      | letter :: rest =>
        match simpleEscape? letter with
        | some decoded => readStringWithin fuel (decoded :: value) rest
        | none => .error .syntaxFault
    else if c < ' ' then .error .syntaxFault
    else readStringWithin fuel (c :: value) rest

def readString (text : List Char) : Result (String × List Char) :=
  readStringWithin (text.length + 1) [] text

def skipStringWithin : (fuel : Nat) → List Char → Result (List Char)
  | 0, _ => .error .endOfText
  | _ + 1, [] => .error .endOfText
  | fuel + 1, c :: rest =>
    if c = '"' then .ok rest
    else if c = '\\' then
      match rest with
      | [] => .error .endOfText
      | 'u' :: rest => do
        let (_, rest) ← hexEscape rest
        skipStringWithin fuel rest
      | letter :: rest =>
        match simpleEscape? letter with
        | some _ => skipStringWithin fuel rest
        | none => .error .syntaxFault
    else if c < ' ' then .error .syntaxFault
    else skipStringWithin fuel rest

def skipString (text : List Char) : Result (List Char) := skipStringWithin (text.length + 1) text

end Json

end PathGuard
