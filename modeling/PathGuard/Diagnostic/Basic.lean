import PathGuard.Diagnostic.Message
/-!
# Diagnostics

What is told about a file: how grave it is, where it shows, its number and wording, and other places
that have to do with it. Offsets and lengths are words of 32 bits.
-/

namespace PathGuard

inductive Severity where
  | warning | error | suggestion | message
  deriving DecidableEq, Repr, Inhabited

namespace Severity

def label : Severity → String
  | warning => "warning"
  | error => "error"
  | suggestion => "suggestion"
  | message => "message"

end Severity

structure MessageForm where
  code : Nat
  severity : Severity
  template : String
  deriving DecidableEq, Repr

namespace MessageForm

def fill (m : MessageForm) (arguments : List String) : String := fillTemplate m.template arguments

end MessageForm

structure RelatedPlace where
  file : String
  start : Nat
  length : Nat
  message : String
  deriving DecidableEq, Repr, Inhabited

namespace RelatedPlace

def severity : Severity := .message

def code : Nat := 0

end RelatedPlace

/-- What is told about a file. The arguments are those that the message was filled with. -/
structure Diagnostic where
  file : String
  start : Nat
  length : Nat
  message : String
  severity : Severity
  code : Nat
  arguments : List String
  related : List RelatedPlace
  deriving DecidableEq, Repr, Inhabited

def offsetCount : Nat := 4294967296

namespace Diagnostic

def error (file : String) (start length : Nat) (message : String) (code : Nat) : Diagnostic :=
  ⟨file, start, length, message, .error, code, [], []⟩

def withRelated (d : Diagnostic) (place : RelatedPlace) : Diagnostic :=
  { d with related := d.related ++ [place] }

def stop (d : Diagnostic) : Nat := (d.start + d.length) % offsetCount

def codeText (code : Nat) : String := "EDA" ++ code.repr

def summary (d : Diagnostic) : String :=
  d.file ++ "(" ++ d.start.repr ++ "): " ++ d.severity.label ++ " " ++ codeText d.code ++ ": "
    ++ d.message

end Diagnostic

end PathGuard
