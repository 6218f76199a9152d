import PathGuard.Token.Keyword
import PathGuard.Token.Punctuator
/-!
# Kinds of tokens

Every kind has a number, shared with the nodes that stand for a single token, and a name.
-/

namespace PathGuard

inductive Trivia where
  | lineComment | blockComment | newLine | whitespace
  deriving DecidableEq, Repr, Inhabited

/-- What a literal token is. A template without substitutions is one token; otherwise it has a
head, a middle piece between any two substitutions, and a tail. -/
inductive LiteralKind where
  | number | bigInt | string | regularExpression
  | template | templateHead | templateMiddle | templateTail
  deriving DecidableEq, Repr, Inhabited

/-- What a token is. `limit` bounds the numbers of the kinds and is the kind of no token. -/
inductive TokenKind where
  | unknown
  | endOfFile
  | trivia (kind : Trivia)
  | literal (kind : LiteralKind)
  | mark (mark : Punctuator)
  | identifier
  | privateIdentifier
  | word (word : Keyword)
  | limit
  deriving DecidableEq, Repr, Inhabited

namespace TokenKind

def all : List TokenKind :=
  [.unknown, .endOfFile]
    ++ [Trivia.lineComment, .blockComment, .newLine, .whitespace].map .trivia
    ++ [LiteralKind.number, .bigInt, .string, .regularExpression, .template, .templateHead,
        .templateMiddle, .templateTail].map .literal
    ++ Punctuator.all.map .mark
    ++ [.identifier, .privateIdentifier]
    ++ Keyword.all.map .word
    ++ [.limit]

def code : TokenKind → Nat
  | .unknown => 0
  | .endOfFile => 1
  | .trivia t => 2 + t.ctorIdx
  | .literal l => 6 + l.ctorIdx
  | .mark p => 14 + p.ctorIdx
  | .identifier => 71
  | .privateIdentifier => 72
  | .word k => 73 + k.ctorIdx
  | .limit => 119

def ofCode? (n : Nat) : Option TokenKind := all[n]?

def name : TokenKind → String
  | .unknown => "Unknown"
  | .endOfFile => "EndOfFileToken"
  | .trivia .lineComment => "SingleLineCommentTrivia"
  | .trivia .blockComment => "MultiLineCommentTrivia"
  | .trivia .newLine => "NewLineTrivia"
  | .trivia .whitespace => "WhitespaceTrivia"
  | .literal .number => "NumericLiteral"
  | .literal .bigInt => "BigIntLiteral"
  | .literal .string => "StringLiteral"
  | .literal .regularExpression => "RegularExpressionLiteral"
  | .literal .template => "NoSubstitutionTemplateLiteral"
  | .literal .templateHead => "TemplateHead"
  | .literal .templateMiddle => "TemplateMiddle"
  | .literal .templateTail => "TemplateTail"
  | .mark p => p.name
  | .identifier => "Identifier"
  | .privateIdentifier => "PrivateIdentifier"
  | .word k => k.name
  | .limit => "Count"

def wordText? : TokenKind → Option String
  | .word k => some k.text
  | _ => none

def markText? : TokenKind → Option String
  | .mark p => some p.text
  | _ => none

def isWord : TokenKind → Bool
  | .word _ => true
  | _ => false

def isReservedWord : TokenKind → Bool
  | .word k => k.isReserved
  | _ => false

def isContextualWord : TokenKind → Bool
  | .word k => k.isContextual
  | _ => false

def isIdentifierOrWord : TokenKind → Bool
  | .identifier => true
  | .word _ => true
  | _ => false

def isMark : TokenKind → Bool
  | .mark _ => true
  | _ => false

def isAssignment : TokenKind → Bool
  | .mark p => p.isAssignment
  | _ => false

def isTemplate : TokenKind → Bool
  | .literal .template => true
  | .literal .templateHead => true
  | .literal .templateMiddle => true
  | .literal .templateTail => true
  | _ => false

def isTrivia : TokenKind → Bool
  | .trivia _ => true
  | _ => false

end TokenKind

end PathGuard
