import PathGuard.Json.Basic
/-!
# Numbers in JSON

No number is ever asked for. One that stands where something else is wanted is still read for its
value, which must not be beyond all doubles; one in a member that nobody reads is only passed by.
-/

namespace PathGuard

namespace Json

/-- The value of a number without its sign: `significand * 10 ^ exponent`. Digits that do not fit a
word of 64 bits do not count in the significand. -/
structure Magnitude where
  significand : Nat
  exponent : Int
  deriving DecidableEq, Repr

namespace Magnitude

def significandCount : Nat := 18446744073709551616

def greatestPower : Int := 308

/-- Whether a magnitude is beyond all doubles, when the significand and the power of ten are rounded
to doubles before they are multiplied. -/
def isInfinite (m : Magnitude) : Bool :=
  if m.significand = 0 || m.exponent < 0 then false
  else if greatestPower < m.exponent then true
  else
    (m.significand.toUInt64.toFloat * Float.ofScientific 1 false m.exponent.toNat).isInf

end Magnitude

/-- Appends digits to a significand as long as it fits. The answer holds the digits left over. -/
def appendDigits : (significand : Nat) → List Char → Nat × List Char
  | significand, [] => (significand, [])
  | significand, c :: rest =>
    let longer := significand * 10 + (c.toNat - 48)
    if longer < Magnitude.significandCount then appendDigits longer rest
    else (significand, c :: rest)

def digitsValue (digits : List Char) : Nat :=
  digits.foldl (fun n c => n * 10 + (c.toNat - 48)) 0

def atExponent : List Char → Bool
  | c :: _ => c = 'e' || c = 'E'
  | [] => false

/-- What is left of a text at the digits of an exponent, behind its letter and sign, and whether the
exponent is negative. -/
def exponentDigits (text : List Char) : Result (Bool × List Char) :=
  let (isNegative, digits) :=
    match text with
    | '+' :: rest => (false, rest)
    | '-' :: rest => (true, rest)
    | _ => (false, text)
  match digits with
  | [] => .error .endOfText
  | c :: _ => if c.isDigit then .ok (isNegative, digits) else .error .syntaxFault

def withExponent (m : Magnitude) (text : List Char) : Result Magnitude :=
  if atExponent text then do
    let (isNegative, digits) ← exponentDigits text.tail
    let value : Int := digitsValue (digits.takeWhile Char.isDigit)
    return { m with exponent := if isNegative then m.exponent - value else m.exponent + value }
  else .ok m

def withFraction (m : Magnitude) (text : List Char) : Result Magnitude :=
  match text with
  | '.' :: rest =>
    let digits := rest.takeWhile Char.isDigit
    let behind := rest.dropWhile Char.isDigit
    if digits.isEmpty then .error (if rest.isEmpty then .endOfText else .syntaxFault)
    else
      let (significand, left) := appendDigits m.significand digits
      withExponent ⟨significand, m.exponent - (digits.length - left.length : Nat)⟩ behind
  | _ => withExponent m text

def readMagnitude (text : List Char) : Result Magnitude :=
  let digits := text.takeWhile Char.isDigit
  let behind := text.dropWhile Char.isDigit
  match digits with
  | [] => .error (if text.isEmpty then .endOfText else .syntaxFault)
  | first :: more =>
    if first = '0' && !more.isEmpty then .error .syntaxFault
    else
      let (significand, left) := appendDigits 0 digits
      withFraction ⟨significand, left.length⟩ behind

def numberFault (text : List Char) : Fault :=
  match readMagnitude text with
  | .error fault => fault
  | .ok m => if m.isInfinite then .syntaxFault else .data

def skipExponent (text : List Char) : Result (List Char) :=
  if atExponent text then
    match exponentDigits text.tail with
    | .error _ => .error .syntaxFault
    | .ok (_, digits) => .ok (digits.dropWhile Char.isDigit)
  else .ok text

/-- Passes by a number without its sign. Wherever it breaks off, the text is no JSON. -/
def skipNumber (text : List Char) : Result (List Char) :=
  let digits := text.takeWhile Char.isDigit
  let behind := text.dropWhile Char.isDigit
  match digits with
  | [] => .error .syntaxFault
  | first :: more =>
    if first = '0' && !more.isEmpty then .error .syntaxFault
    else
      match behind with
      | '.' :: rest =>
        if (rest.takeWhile Char.isDigit).isEmpty then .error .syntaxFault
        else skipExponent (rest.dropWhile Char.isDigit)
      | _ => skipExponent behind

end Json

end PathGuard
