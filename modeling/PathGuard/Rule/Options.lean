import PathGuard.Rule.Protected
import PathGuard.Text.Quoted
/-!
# Options of the rule

The paths that are to be protected. Without paths the rule does nothing. Paths that can never match
are no error: they are only reported.
-/

namespace PathGuard

structure Options where
  paths : Option (List String)
  deriving DecidableEq, Repr

/-- Something odd about the options; entries are counted from zero. -/
inductive OptionsIssue where
  | noPaths
  | emptyEntry (index : Nat)
  | surroundingBlanks (index : Nat) (path : String)
  | emptySegment (index : Nat) (path : String)
  deriving DecidableEq, Repr

namespace OptionsIssue

def index? : OptionsIssue → Option Nat
  | noPaths => none
  | emptyEntry index | surroundingBlanks index _ | emptySegment index _ => some index

def path? : OptionsIssue → Option String
  | noPaths | emptyEntry _ => none
  | surroundingBlanks _ path | emptySegment _ path => some path

def entryText (index : Nat) : String := "'paths[" ++ index.repr ++ "]'"

def message : OptionsIssue → String
  | noPaths => "'paths' cannot be empty. Please provide at least one path to check."
  | emptyEntry index => entryText index ++ " is empty and will be ignored."
  | surroundingBlanks index path =>
    entryText index ++ " (" ++ quoted path ++ ") has surrounding whitespace and will never match."
  | emptySegment index path =>
    entryText index ++ " (" ++ quoted path ++ ") contains an empty segment and will never match."

end OptionsIssue

namespace Options

def none : Options := ⟨.none⟩

instance : Inhabited Options := ⟨none⟩

def entries (o : Options) : List String := o.paths.getD []

def isActive (o : Options) : Bool := !o.entries.isEmpty

def entryIssues (index : Nat) (path : String) : List OptionsIssue :=
  let text := path.toList
  if isAllBlank text then [.emptyEntry index]
  else
    (if trimBlanks text = text then [] else [.surroundingBlanks index path]) ++
      (if hasBlankSegment text then [.emptySegment index path] else [])

def issuesFrom (index : Nat) : List String → List OptionsIssue
  | [] => []
  | path :: rest => entryIssues index path ++ issuesFrom (index + 1) rest

def issues (o : Options) : List OptionsIssue :=
  if o.isActive then issuesFrom 0 o.entries else [.noPaths]

def protectedPaths (o : Options) : ProtectedPaths := .ofList o.entries

end Options

end PathGuard
