import PathGuard.Token.Kind
/-!
# Syntax problems

The causes of syntax problems, with their numbers and wordings.
-/

namespace PathGuard

inductive SyntaxError where
  | unterminatedString
  | identifierExpected
  | tokenExpected (kind : TokenKind)
  | expressionExpected
  | invalidCharacter
  | statementExpected
  | variableDeclarationExpected
  | argumentExpected
  | propertyAssignmentExpected
  | stringLiteralExpected
  | unterminatedTemplate
  | unterminatedRegularExpression
  | nestingTooDeep
  deriving DecidableEq, Repr, Inhabited

namespace SyntaxError

def code : SyntaxError → Nat
  | unterminatedString => 1002
  | identifierExpected => 1003
  | tokenExpected _ => 1005
  | expressionExpected => 1109
  | invalidCharacter => 1127
  | statementExpected => 1128
  | variableDeclarationExpected => 1134
  | argumentExpected => 1135
  | propertyAssignmentExpected => 1136
  | stringLiteralExpected => 1141
  | unterminatedTemplate => 1160
  | unterminatedRegularExpression => 1161
  | nestingTooDeep => 1990

/-- How an expected token is named: as it is written, if it is always written alike. -/
def tokenText (kind : TokenKind) : String :=
  match kind.markText? with
  | some text => text
  | none => kind.wordText?.getD "token"

def message : SyntaxError → String
  | unterminatedString => "Unterminated string literal."
  | identifierExpected => "Identifier expected."
  | tokenExpected kind => "'" ++ tokenText kind ++ "' expected."
  | expressionExpected => "Expression expected."
  | invalidCharacter => "Invalid character."
  | statementExpected => "Declaration or statement expected."
  | variableDeclarationExpected => "Variable declaration expected."
  | argumentExpected => "Argument expression expected."
  | propertyAssignmentExpected => "Property assignment expected."
  | stringLiteralExpected => "String literal expected."
  | unterminatedTemplate => "Unterminated template literal."
  | unterminatedRegularExpression => "Unterminated regular expression literal."
  | nestingTooDeep => "Maximum nesting depth exceeded."

end SyntaxError

structure Problem where
  start : Nat
  length : Nat
  cause : SyntaxError
  deriving DecidableEq, Repr, Inhabited

end PathGuard
