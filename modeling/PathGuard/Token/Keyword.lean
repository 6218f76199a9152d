/-!
# Reserved and contextual words

The words with a meaning of their own in the grammar, in two groups: those that never name
anything, and those that do so outside their own constructs.
-/

namespace PathGuard

/-- A word of the language. The reserved ones come first, up to `withWord`. -/
inductive Keyword where
  | breakWord | caseWord | catchWord | classWord | constWord | continueWord | debuggerWord
  | defaultWord | deleteWord | doWord | elseWord | enumWord | exportWord | extendsWord
  | falseWord | finallyWord | forWord | functionWord | ifWord | importWord | inWord
  | instanceofWord | newWord | nullWord | returnWord | superWord | switchWord | thisWord
  | throwWord | trueWord | tryWord | typeofWord | varWord | voidWord | whileWord | withWord
  | asWord | asyncWord | awaitWord | fromWord | getWord | letWord | ofWord | setWord | staticWord
  | yieldWord
  deriving DecidableEq, Repr, Inhabited

namespace Keyword

def all : List Keyword :=
  [.breakWord, .caseWord, .catchWord, .classWord, .constWord, .continueWord, .debuggerWord,
   .defaultWord, .deleteWord, .doWord, .elseWord, .enumWord, .exportWord, .extendsWord,
   .falseWord, .finallyWord, .forWord, .functionWord, .ifWord, .importWord, .inWord,
   .instanceofWord, .newWord, .nullWord, .returnWord, .superWord, .switchWord, .thisWord,
   .throwWord, .trueWord, .tryWord, .typeofWord, .varWord, .voidWord, .whileWord, .withWord,
   .asWord, .asyncWord, .awaitWord, .fromWord, .getWord, .letWord, .ofWord, .setWord,
   .staticWord, .yieldWord]

def text : Keyword → String
  | .breakWord => "break"
  | .caseWord => "case"
  | .catchWord => "catch"
  | .classWord => "class"
  | .constWord => "const"
  | .continueWord => "continue"
  | .debuggerWord => "debugger"
  | .defaultWord => "default"
  | .deleteWord => "delete"
  | .doWord => "do"
  | .elseWord => "else"
  | .enumWord => "enum"
  | .exportWord => "export"
  | .extendsWord => "extends"
  | .falseWord => "false"
  | .finallyWord => "finally"
  | .forWord => "for"
  | .functionWord => "function"
  | .ifWord => "if"
  | .importWord => "import"
  | .inWord => "in"
  | .instanceofWord => "instanceof"
  | .newWord => "new"
  | .nullWord => "null"
  | .returnWord => "return"
  | .superWord => "super"
  | .switchWord => "switch"
  | .thisWord => "this"
  | .throwWord => "throw"
  | .trueWord => "true"
  | .tryWord => "try"
  | .typeofWord => "typeof"
  | .varWord => "var"
  | .voidWord => "void"
  | .whileWord => "while"
  | .withWord => "with"
  | .asWord => "as"
  | .asyncWord => "async"
  | .awaitWord => "await"
  | .fromWord => "from"
  | .getWord => "get"
  | .letWord => "let"
  | .ofWord => "of"
  | .setWord => "set"
  | .staticWord => "static"
  | .yieldWord => "yield"

def name : Keyword → String
  | .instanceofWord => "InstanceOfKeyword"
  | .typeofWord => "TypeOfKeyword"
  | k => k.text.capitalize ++ "Keyword"

def ofText? (text : String) : Option Keyword := all.find? fun k => k.text == text

def isReserved (k : Keyword) : Bool := k.ctorIdx ≤ withWord.ctorIdx

def isContextual (k : Keyword) : Bool := !k.isReserved

end Keyword

end PathGuard
