import PathGuard.Text.Dotted
/-!
# Protected paths

The paths that a rule protects, in the order in which they were given. A path protects itself and
all that descends from it.
-/

namespace PathGuard

structure ProtectedPaths where
  paths : List String
  deriving DecidableEq, Repr, Inhabited

namespace ProtectedPaths

/-- The paths in a list. Of equal ones the first is kept, and blank ones are left out. -/
def ofList (paths : List String) : ProtectedPaths :=
  ⟨(paths.filter fun path => !isAllBlank path.toList).eraseDups⟩

def isEmpty (p : ProtectedPaths) : Bool := p.paths.isEmpty

def size (p : ProtectedPaths) : Nat := p.paths.length

def contains (p : ProtectedPaths) (path : String) : Bool := p.paths.contains path

def longest? (texts : List String) : Option String :=
  texts.foldl
    (fun best text =>
      match best with
      | some other => if other.utf8ByteSize ≤ text.utf8ByteSize then some text else best
      | none => some text)
    none

/-- The protected path that a path is or descends from; of several the longest. A path that is
protected itself is looked up. -/
def match? (p : ProtectedPaths) (path : String) : Option String :=
  if p.contains path then some path else longest? (p.paths.filter (descendsFrom path))

end ProtectedPaths

end PathGuard
