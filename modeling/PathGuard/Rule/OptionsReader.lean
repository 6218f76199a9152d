import PathGuard.Json.Skip
import PathGuard.Rule.Options
/-!
# Reading options

Options are written as a JSON object whose member `paths` is a list of strings or null. Other
members are passed by. A list whose first item, if there is one, is such a value can stand for the
object.
-/

namespace PathGuard

namespace Options

open Json

def readItemsWithin : (fuel : Nat) → (isFirst : Bool) → (items : List String) → List Char →
    Result (List String × List Char)
  | 0, _, _, _ => .error .syntaxFault
  | fuel + 1, isFirst, items, text => do
    match ← nextItem ']' isFirst text with
    | .close rest => return (items.reverse, rest)
    | .item ('"' :: rest) =>
      let (item, rest) ← readString rest
      readItemsWithin fuel false (item :: items) rest
    | .item text => throw (mismatch text)

def readPaths (text : List Char) : Result (Option (List String) × List Char) :=
  match skipGap text with
  | 'n' :: rest => do return (.none, ← expectWord ['u', 'l', 'l'] rest)
  | '[' :: rest => do
    let (items, rest) ← readItemsWithin (rest.length + 1) true [] rest
    return (some items, rest)
  | text => .error (mismatch text)

/-- Reads the members of an object, `fuel` at most; `paths` is what the member of that name held, if
it came already. -/
def readMembersWithin : (fuel : Nat) → (isFirst : Bool) →
    (paths : Option (Option (List String))) → List Char → Result (Options × List Char)
  | 0, _, _, _ => .error .syntaxFault
  | fuel + 1, isFirst, paths, text => do
    match ← nextItem '\x7d' isFirst text with
    | .close rest => return (⟨paths.join⟩, rest)
    | .item ('"' :: rest) =>
      let (key, rest) ← readString rest
      if key = "paths" then
        if paths.isSome then throw .data
        let (value, rest) ← readPaths (← expectColon rest)
        readMembersWithin fuel false (some value) rest
      else readMembersWithin fuel false paths (← skipValue (← expectColon rest))
    | .item _ => throw .syntaxFault

/-- Reads a list that stands for an object. -/
def readPositional (text : List Char) : Result (Options × List Char) := do
  match ← nextItem ']' true text with
  | .close rest => return (.none, rest)
  | .item text =>
    let (paths, rest) ← readPaths text
    return (⟨paths⟩, ← expectClose ']' rest)

def readValue (text : List Char) : Result (Options × List Char) :=
  match skipGap text with
  | '\x7b' :: rest => readMembersWithin (rest.length + 1) true .none rest
  | '[' :: rest => readPositional rest
  | text => .error (mismatch text)

def read (text : String) : Result Options := do
  let (options, rest) ← readValue text.toList
  if (skipGap rest).isEmpty then return options else throw .syntaxFault

def readOrNone (text : String) : Options :=
  match read text with
  | .ok options => options
  | .error _ => .none

end Options

end PathGuard
