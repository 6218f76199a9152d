/-!
# Reading JSON

What all readers of JSON text share: the ways in which reading fails, blanks, fixed words, and the
marks between the items of a list or an object. A reader takes what is left of the text and answers
with what is left behind the part that it read. The first fault that is met decides.
-/

namespace PathGuard

namespace Json

/-- Why reading fails: the text is no JSON, it is not of the form that is asked for, or it ends too
early. -/
inductive Fault where
  | syntaxFault | data | endOfText
  deriving DecidableEq, Repr, Inhabited

abbrev Result (α : Type) := Except Fault α

def isGap (c : Char) : Bool := c == ' ' || c == '\n' || c == '\t' || c == '\r'

def skipGap (text : List Char) : List Char := text.dropWhile isGap

def expectWord : (word text : List Char) → Result (List Char)
  | [], text => .ok text
  | _ :: _, [] => .error .endOfText
  | w :: word, c :: text => if w = c then expectWord word text else .error .syntaxFault

/-- An item of a list or an object, or their end: the text from the item on, or that behind the
end. -/
inductive Next where
  | item (text : List Char)
  | close (rest : List Char)
  deriving DecidableEq, Repr

/-- Goes on to the next item. Items have commas between them; `isFirst` tells that none came yet. -/
def nextItem (close : Char) (isFirst : Bool) (text : List Char) : Result Next :=
  match skipGap text with
  | [] => .error .endOfText
  | c :: rest =>
    if c = close then .ok (.close rest)
    else if isFirst then .ok (.item (c :: rest))
    else if c = ',' then
      match skipGap rest with
      | [] => .error .endOfText
      | d :: more => if d = close then .error .syntaxFault else .ok (.item (d :: more))
    else .error .syntaxFault

def expectClose (close : Char) (text : List Char) : Result (List Char) :=
  match skipGap text with
  | [] => .error .endOfText
  | c :: rest => if c = close then .ok rest else .error .syntaxFault

def expectColon (text : List Char) : Result (List Char) :=
  match skipGap text with
  | [] => .error .endOfText
  | c :: rest => if c = ':' then .ok rest else .error .syntaxFault

end Json

end PathGuard
