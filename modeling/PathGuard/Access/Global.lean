import PathGuard.Access.Path
import PathGuard.Scope.Build
/-!
# Global names

A path that starts at an identifier speaks of the global of that name only when no declaration
around it binds the name. What a name means is asked of a resolver, so that the rule can also run
without scopes.
-/

namespace PathGuard

inductive Lookup where
  | bound (declaration : Child)
  | unbound
  deriving DecidableEq, Repr

abbrev Resolver := String → Child → Lookup

namespace Resolver

def nothingBound : Resolver := fun _ _ => .unbound

end Resolver

namespace Scopes

def resolver (s : Scopes) (t : Tree) : Resolver := fun name place =>
  match s.resolve? t name place with
  | some id => .bound ((s.symbols.get? id).bind fun symbol => symbol.declarations[0]?.join)
  | none => .unbound

end Scopes

/-- Whether `identifier` means a global at the node `context`. What is no identifier never does. -/
def isGlobal (t : Tree) (resolver : Resolver) (identifier context : Child) : Bool :=
  match t.identifierText? identifier with
  | some name => resolver name context = .unbound
  | none => false

namespace AccessPath

/-- Whether a path starts at a global, or at something that cannot be bound. -/
def startsGlobal (p : AccessPath) (t : Tree) (resolver : Resolver) (context : Child) : Bool :=
  match p.base with
  | .identifier id => isGlobal t resolver (some id) context
  | .metaProperty => true

end AccessPath

end PathGuard
