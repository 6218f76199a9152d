import PathGuard.Diagnostic.Basic
/-!
# Violations

The three ways in which a text can use a protected path so that tools which replace the path in the
text do not find it, with the wordings that belong to them.
-/

namespace PathGuard

inductive ViolationKind where
  | optionalChaining
  | destructuringWithOptional
  | destructuring
  deriving DecidableEq, Repr, Inhabited

namespace ViolationKind

def name : ViolationKind → String
  | optionalChaining => "optional-chaining"
  | destructuringWithOptional => "destructuring-with-optional"
  | destructuring => "destructuring"

def code : ViolationKind → Nat
  | optionalChaining => 9101
  | destructuringWithOptional => 9102
  | destructuring => 9103

def ofCode? : Nat → Option ViolationKind
  | 9101 => some optionalChaining
  | 9102 => some destructuringWithOptional
  | 9103 => some destructuring
  | _ => none

theorem ofCode?_code (k : ViolationKind) : ofCode? k.code = some k := by
  cases k <;> rfl

def template : ViolationKind → String
  | optionalChaining =>
    "Optional chaining with '\x7b0\x7d' is unsafe. Remove the optional chaining operator ('?.') "
      ++ "and access properties directly instead."
  | destructuringWithOptional =>
    "Destructuring with optional chaining on '\x7b0\x7d' is unsafe. Remove both destructuring and "
      ++ "optional chaining. Access properties directly from '\x7b0\x7d'."
  | destructuring =>
    "Destructuring '\x7b0\x7d' is unsafe. Access properties directly from '\x7b0\x7d' instead of "
      ++ "destructuring."

def label : ViolationKind → String
  | optionalChaining => "remove the optional chaining operator ('?.')"
  | destructuringWithOptional => "remove both destructuring and optional chaining"
  | destructuring => "remove destructuring pattern"

def note : ViolationKind → String
  | optionalChaining =>
    "Optional chaining prevents static analysis tools from correctly identifying property accesses "
      ++ "during build-time text replacement."
  | destructuringWithOptional =>
    "The combination of destructuring and optional chaining makes it impossible for static "
      ++ "analysis tools to track property access patterns."
  | destructuring =>
    "Destructuring breaks the static property access chain that build-time text replacement tools "
      ++ "rely on."

def help (k : ViolationKind) (path : String) : String :=
  "Access properties directly from '" ++ path ++ "' instead:\n- Bad:  " ++
    match k with
    | optionalChaining => path ++ "?.property\n- Good: " ++ path ++ ".property"
    | destructuringWithOptional =>
      "const \x7b prop \x7d = " ++ path ++ "?.object;\n- Good: " ++ path ++ ".object.prop"
    | destructuring => "const \x7b prop \x7d = parent;\n- Good: " ++ path ++ ".prop"

end ViolationKind

/-- A violation: the protected path, and the bytes of the text that use it. -/
structure Violation where
  kind : ViolationKind
  path : String
  start : Nat
  stop : Nat
  deriving DecidableEq, Repr

namespace Violation

def message (v : Violation) : String := fillTemplate v.kind.template [v.path]

def diagnostic (v : Violation) (file : String) : Diagnostic :=
  { Diagnostic.error file v.start (v.stop - v.start) v.message v.kind.code with
    arguments := [v.path] }

end Violation

end PathGuard
