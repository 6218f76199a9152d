import PathGuard.Grammar.Program
import PathGuard.Rule.Check
import PathGuard.Rule.Options
/-!
# Checking texts

A text is parsed, its scopes are built, and its tree is checked. A text with a syntax problem is not
checked: its first problem is the answer. Without protected paths a text is not even parsed.
-/

namespace PathGuard

namespace Problem

def diagnostic (p : Problem) (file : String) : Diagnostic :=
  .error file p.start p.length p.cause.message p.cause.code

end Problem

namespace ParsedFile

def scopes (f : ParsedFile) : Scopes := .ofTree f.tree f.root

def checker (f : ParsedFile) (paths : ProtectedPaths) : Checker :=
  ⟨f.tree, f.scopes.resolver f.tree, paths⟩

end ParsedFile

def checkText (paths : ProtectedPaths) (file source : String) : Option Diagnostic :=
  if paths.isEmpty then none
  else
    let parsed := parseFile file source
    match parsed.problems with
    | problem :: _ => some (problem.diagnostic file)
    | [] => ((parsed.checker paths).firstViolation? parsed.root).map (·.diagnostic file)

/-- What is wrong with a text under the options, if anything. -/
def checkSource (options : Options) (file source : String) : Option Diagnostic :=
  checkText options.protectedPaths file source

structure SourceUnit where
  file : String
  source : String
  deriving DecidableEq, Repr

structure Outcome where
  file : String
  diagnostic : Option Diagnostic
  deriving DecidableEq, Repr

namespace Outcome

def isClean (o : Outcome) : Bool := o.diagnostic.isNone

end Outcome

def checkSources (options : Options) (units : List SourceUnit) : List Outcome :=
  units.map fun unit => ⟨unit.file, checkSource options unit.file unit.source⟩

end PathGuard
