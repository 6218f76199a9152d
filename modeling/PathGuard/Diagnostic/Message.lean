/-!
# Messages

Templates for messages have numbered places, such as `{0}`. They are filled one after
another, so what is put into an earlier place can hold places for later arguments.
-/

namespace PathGuard

/-- Puts `value` in the place of every `mark` in a text, from left to right; `skip` characters are
left out first. -/
def replaceMark (mark value : List Char) : (skip : Nat) → List Char → List Char
  | _, [] => []
  | skip + 1, _ :: rest => replaceMark mark value skip rest
  | 0, c :: rest =>
    if mark.isPrefixOf (c :: rest) then value ++ replaceMark mark value (mark.length - 1) rest
    else c :: replaceMark mark value 0 rest

def placeMark (number : Nat) : List Char := '\x7b' :: (Nat.toDigits 10 number ++ ['\x7d'])

def fillFrom (number : Nat) (template : List Char) : List String → List Char
  | [] => template
  | value :: more =>
    fillFrom (number + 1) (replaceMark (placeMark number) value.toList 0 template) more

def fillTemplate (template : String) (arguments : List String) : String :=
  String.ofList (fillFrom 0 template.toList arguments)

end PathGuard
