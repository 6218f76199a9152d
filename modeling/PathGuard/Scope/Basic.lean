import PathGuard.Scope.Symbol
import PathGuard.Tree.Basic
/-!
# Scopes

The scopes of a text form a tree: every scope but the first lies in an earlier one. A scope belongs
to the node that opens it, so the scope around any node is found by going up from the node. A name
means the same everywhere in a scope, wherever in it the declaration stands.

Scopes and symbols are counted by natural numbers, like nodes. Kept in 32 bits, the numbers are the
same while there are fewer than 2 ^ 32 scopes and fewer than 2 ^ 32 symbols.
-/

namespace PathGuard

abbrev ScopeId := Nat

inductive ScopeKind where
  | sourceFile | function | block | catchClause | classLike
  deriving DecidableEq, Repr, Inhabited

namespace ScopeKind

def holdsHoisted : ScopeKind → Bool
  | .sourceFile | .function => true
  | _ => false

end ScopeKind

structure Scope where
  parent : Option ScopeId
  kind : ScopeKind
  container : NodeId
  table : SymbolTable

def maxScopeSteps : Nat := 10000

/-- The scopes of a text, its symbols, the scopes that nodes open, the symbols that names declare,
and the scope that is open now. -/
structure Scopes where
  scopes : Array Scope
  symbols : SymbolStore
  ofNode : Std.TreeMap NodeId ScopeId
  ofName : Std.TreeMap NodeId SymbolId
  current : Option ScopeId

namespace Scopes

def empty : Scopes := ⟨#[], .empty, ∅, ∅, none⟩

instance : Inhabited Scopes := ⟨empty⟩

def scope? (s : Scopes) (id : ScopeId) : Option Scope := s.scopes[id]?

/-! ### Building -/

def enter (s : Scopes) (kind : ScopeKind) (container : NodeId) : Scopes :=
  { s with
    scopes := s.scopes.push ⟨s.current, kind, container, ∅⟩
    ofNode := s.ofNode.insert container s.scopes.size
    current := some s.scopes.size }

def leave (s : Scopes) : Scopes :=
  match s.current.bind s.scope? with
  | some scope => { s with current := scope.parent }
  | none => s

/-- Goes up from `id` to the nearest scope that holds hoisted variables, past `fuel` scopes at
most. -/
def hoistTargetFrom (s : Scopes) : (fuel : Nat) → ScopeId → Option ScopeId
  | 0, id => some id
  | fuel + 1, id =>
    match s.scope? id with
    | none => s.current
    | some scope =>
      if scope.kind.holdsHoisted then some id
      else
        match scope.parent with
        | some parent => s.hoistTargetFrom fuel parent
        | none => some id

def hoistTarget (s : Scopes) : Option ScopeId :=
  s.current.bind (s.hoistTargetFrom maxScopeSteps)

def symbolFor (s : Scopes) (id : ScopeId) (scope : Scope) (forms : Nat) (name : String) :
    SymbolId × Scopes :=
  match scope.table[name]? with
  | some symbol => (symbol, s)
  | none =>
    let (symbol, symbols) := s.symbols.alloc forms name
    (symbol, { s with
      symbols := symbols
      scopes := s.scopes.modify id fun scope =>
        { scope with table := scope.table.insert name symbol } })

def declareIn (s : Scopes) (id : ScopeId) (form : DeclarationForm) (name : String)
    (node : NodeId) : Scopes :=
  match s.scope? id with
  | none => s
  | some scope =>
    let (symbol, s) := s.symbolFor id scope form.bit name
    { s with
      symbols := s.symbols.declare symbol form.bit (some node)
      ofName := s.ofName.insert node symbol }

/-- Lets `node` belong to the scope that is open. -/
def shareCurrent (s : Scopes) (node : NodeId) : Scopes :=
  match s.current with
  | some id => { s with ofNode := s.ofNode.insert node id }
  | none => s

/-! ### Looking up -/

def scopeOfNode? (s : Scopes) (id : Child) : Option ScopeId := id.bind fun i => s.ofNode[i]?

def symbolOfName? (s : Scopes) (id : Child) : Option SymbolId := id.bind fun i => s.ofName[i]?

def outermost? (s : Scopes) : Option ScopeId := if s.scopes.isEmpty then none else some 0

def enclosingWithin (s : Scopes) (t : Tree) : (fuel : Nat) → Child → Option ScopeId
  | 0, _ => s.outermost?
  | _ + 1, none => s.outermost?
  | fuel + 1, some i =>
    match s.ofNode[i]? with
    | some id => some id
    | none => s.enclosingWithin t fuel (t.parent (some i))

/-- The innermost scope around a node. A chain of constructs has no more nodes than the tree. -/
def enclosing? (s : Scopes) (t : Tree) (id : Child) : Option ScopeId :=
  s.enclosingWithin t t.size id

def lookupWithin (s : Scopes) (name : String) : (fuel : Nat) → Option ScopeId → Option SymbolId
  | 0, _ => none
  | _ + 1, none => none
  | fuel + 1, some id =>
    match s.scope? id with
    | none => none
    | some scope =>
      match scope.table[name]? with
      | some symbol => some symbol
      | none => s.lookupWithin name fuel scope.parent

def resolve? (s : Scopes) (t : Tree) (name : String) (at_ : Child) : Option SymbolId :=
  s.lookupWithin name (maxScopeSteps + 1) (s.enclosing? t at_)

def resolveIdentifier? (s : Scopes) (t : Tree) (id : Child) : Option SymbolId :=
  (t.identifierText? id).bind fun name => s.resolve? t name id

end Scopes

end PathGuard
