/-!
# Punctuators

The marks between names and literals. Where several marks begin alike, the longest one that the
text begins with is the one that is meant.
-/

namespace PathGuard

/-- A mark of the language. The assignment operators come last, from `equals` on. -/
inductive Punctuator where
  | openBrace | closeBrace | openParen | closeParen | openBracket | closeBracket | dot
  | dotDotDot | semicolon | comma | questionDot | lessThan | greaterThan | lessThanEquals
  | greaterThanEquals | equalsEquals | exclamationEquals | equalsEqualsEquals
  | exclamationEqualsEquals | arrow | plus | minus | asterisk | asteriskAsterisk | slash
  | percent | plusPlus | minusMinus | lessThanLessThan | greaterThanGreaterThan
  | greaterThanGreaterThanGreaterThan | ampersand | bar | caret | exclamation | tilde
  | ampersandAmpersand | barBar | question | colon | questionQuestion | equals | plusEquals
  | minusEquals | asteriskEquals | asteriskAsteriskEquals | slashEquals | percentEquals
  | lessThanLessThanEquals | greaterThanGreaterThanEquals
  | greaterThanGreaterThanGreaterThanEquals | ampersandEquals | barEquals | caretEquals
  | barBarEquals | ampersandAmpersandEquals | questionQuestionEquals
  deriving DecidableEq, Repr, Inhabited

namespace Punctuator

def all : List Punctuator :=
  [.openBrace, .closeBrace, .openParen, .closeParen, .openBracket, .closeBracket, .dot,
   .dotDotDot, .semicolon, .comma, .questionDot, .lessThan, .greaterThan, .lessThanEquals,
   .greaterThanEquals, .equalsEquals, .exclamationEquals, .equalsEqualsEquals,
   .exclamationEqualsEquals, .arrow, .plus, .minus, .asterisk, .asteriskAsterisk, .slash,
   .percent, .plusPlus, .minusMinus, .lessThanLessThan, .greaterThanGreaterThan,
   .greaterThanGreaterThanGreaterThan, .ampersand, .bar, .caret, .exclamation, .tilde,
   .ampersandAmpersand, .barBar, .question, .colon, .questionQuestion, .equals, .plusEquals,
   .minusEquals, .asteriskEquals, .asteriskAsteriskEquals, .slashEquals, .percentEquals,
   .lessThanLessThanEquals, .greaterThanGreaterThanEquals,
   .greaterThanGreaterThanGreaterThanEquals, .ampersandEquals, .barEquals, .caretEquals,
   .barBarEquals, .ampersandAmpersandEquals, .questionQuestionEquals]

def chars : Punctuator → List Char
  | .openBrace => ['{']
  | .closeBrace => ['}']
  | .openParen => ['(']
  | .closeParen => [')']
  | .openBracket => ['[']
  | .closeBracket => [']']
  | .dot => ['.']
  | .dotDotDot => ['.', '.', '.']
  | .semicolon => [';']
  | .comma => [',']
  | .questionDot => ['?', '.']
  | .lessThan => ['<']
  | .greaterThan => ['>']
  | .lessThanEquals => ['<', '=']
  | .greaterThanEquals => ['>', '=']
  | .equalsEquals => ['=', '=']
  | .exclamationEquals => ['!', '=']
  | .equalsEqualsEquals => ['=', '=', '=']
  | .exclamationEqualsEquals => ['!', '=', '=']
  | .arrow => ['=', '>']
  | .plus => ['+']
  | .minus => ['-']
  | .asterisk => ['*']
  | .asteriskAsterisk => ['*', '*']
  | .slash => ['/']
  | .percent => ['%']
  | .plusPlus => ['+', '+']
  | .minusMinus => ['-', '-']
  | .lessThanLessThan => ['<', '<']
  | .greaterThanGreaterThan => ['>', '>']
  | .greaterThanGreaterThanGreaterThan => ['>', '>', '>']
  | .ampersand => ['&']
  | .bar => ['|']
  | .caret => ['^']
  | .exclamation => ['!']
  | .tilde => ['~']
  | .ampersandAmpersand => ['&', '&']
  | .barBar => ['|', '|']
  | .question => ['?']
  | .colon => [':']
  | .questionQuestion => ['?', '?']
  | .equals => ['=']
  | .plusEquals => ['+', '=']
  | .minusEquals => ['-', '=']
  | .asteriskEquals => ['*', '=']
  | .asteriskAsteriskEquals => ['*', '*', '=']
  | .slashEquals => ['/', '=']
  | .percentEquals => ['%', '=']
  | .lessThanLessThanEquals => ['<', '<', '=']
  | .greaterThanGreaterThanEquals => ['>', '>', '=']
  | .greaterThanGreaterThanGreaterThanEquals => ['>', '>', '>', '=']
  | .ampersandEquals => ['&', '=']
  | .barEquals => ['|', '=']
  | .caretEquals => ['^', '=']
  | .barBarEquals => ['|', '|', '=']
  | .ampersandAmpersandEquals => ['&', '&', '=']
  | .questionQuestionEquals => ['?', '?', '=']

def text (p : Punctuator) : String := String.ofList p.chars

def name : Punctuator → String
  | .openBrace => "OpenBraceToken"
  | .closeBrace => "CloseBraceToken"
  | .openParen => "OpenParenToken"
  | .closeParen => "CloseParenToken"
  | .openBracket => "OpenBracketToken"
  | .closeBracket => "CloseBracketToken"
  | .dot => "DotToken"
  | .dotDotDot => "DotDotDotToken"
  | .semicolon => "SemicolonToken"
  | .comma => "CommaToken"
  | .questionDot => "QuestionDotToken"
  | .lessThan => "LessThanToken"
  | .greaterThan => "GreaterThanToken"
  | .lessThanEquals => "LessThanEqualsToken"
  | .greaterThanEquals => "GreaterThanEqualsToken"
  | .equalsEquals => "EqualsEqualsToken"
  | .exclamationEquals => "ExclamationEqualsToken"
  | .equalsEqualsEquals => "EqualsEqualsEqualsToken"
  | .exclamationEqualsEquals => "ExclamationEqualsEqualsToken"
  | .arrow => "EqualsGreaterThanToken"
  | .plus => "PlusToken"
  | .minus => "MinusToken"
  | .asterisk => "AsteriskToken"
  | .asteriskAsterisk => "AsteriskAsteriskToken"
  | .slash => "SlashToken"
  | .percent => "PercentToken"
  | .plusPlus => "PlusPlusToken"
  | .minusMinus => "MinusMinusToken"
  | .lessThanLessThan => "LessThanLessThanToken"
  | .greaterThanGreaterThan => "GreaterThanGreaterThanToken"
  | .greaterThanGreaterThanGreaterThan => "GreaterThanGreaterThanGreaterThanToken"
  | .ampersand => "AmpersandToken"
  | .bar => "BarToken"
  | .caret => "CaretToken"
  | .exclamation => "ExclamationToken"
  | .tilde => "TildeToken"
  | .ampersandAmpersand => "AmpersandAmpersandToken"
  | .barBar => "BarBarToken"
  | .question => "QuestionToken"
  | .colon => "ColonToken"
  | .questionQuestion => "QuestionQuestionToken"
  | .equals => "EqualsToken"
  | .plusEquals => "PlusEqualsToken"
  | .minusEquals => "MinusEqualsToken"
  | .asteriskEquals => "AsteriskEqualsToken"
  | .asteriskAsteriskEquals => "AsteriskAsteriskEqualsToken"
  | .slashEquals => "SlashEqualsToken"
  | .percentEquals => "PercentEqualsToken"
  | .lessThanLessThanEquals => "LessThanLessThanEqualsToken"
  | .greaterThanGreaterThanEquals => "GreaterThanGreaterThanEqualsToken"
  | .greaterThanGreaterThanGreaterThanEquals => "GreaterThanGreaterThanGreaterThanEqualsToken"
  | .ampersandEquals => "AmpersandEqualsToken"
  | .barEquals => "BarEqualsToken"
  | .caretEquals => "CaretEqualsToken"
  | .barBarEquals => "BarBarEqualsToken"
  | .ampersandAmpersandEquals => "AmpersandAmpersandEqualsToken"
  | .questionQuestionEquals => "QuestionQuestionEqualsToken"

def isAssignment (p : Punctuator) : Bool := equals.ctorIdx ≤ p.ctorIdx

/-- Whether the text begins with the mark. `?.` before a digit is no mark: `a?.5:b` is a
conditional with a number. -/
def begins (p : Punctuator) (text : List Char) : Bool :=
  p.chars.isPrefixOf text &&
    !(p == .questionDot && (text.drop 2).head?.any Char.isDigit)

def longest? (text : List Char) : Option Punctuator :=
  (all.filter (·.begins text)).foldl
    (fun best p =>
      match best with
      | some b => if b.chars.length < p.chars.length then some p else some b
      | none => some p)
    none

end Punctuator

end PathGuard
