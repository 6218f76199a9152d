import PathGuard.Tree.Record
import Std.Data.TreeMap.Basic
/-!
# Symbols

A symbol is a name that is bound in one scope, with all its declarations there. How a name was
declared is kept as bits of a number, one for each form.
-/

namespace PathGuard

abbrev SymbolId := Nat

inductive DeclarationForm where
  | hoistedVariable | blockVariable | parameter | function | classLike | importBinding
  | catchVariable
  deriving DecidableEq, Repr, Inhabited

namespace DeclarationForm

def bit (f : DeclarationForm) : Nat := 1 <<< f.ctorIdx

end DeclarationForm

/-- A name that is bound, the forms of its declarations as bits, and the nodes that declare it, in
the order in which they were found. -/
structure Symbol where
  forms : Nat
  name : String
  declarations : Array Child
  deriving DecidableEq, Repr, Inhabited

namespace Symbol

def hasAny (s : Symbol) (mask : Nat) : Bool := s.forms &&& mask != 0

def declare (s : Symbol) (forms : Nat) (node : Child) : Symbol :=
  { s with forms := s.forms ||| forms, declarations := s.declarations.push node }

end Symbol

structure SymbolStore where
  symbols : Array Symbol
  deriving Repr, Inhabited

namespace SymbolStore

def empty : SymbolStore := ⟨#[]⟩

def size (s : SymbolStore) : Nat := s.symbols.size

def get? (s : SymbolStore) (id : SymbolId) : Option Symbol := s.symbols[id]?

def alloc (s : SymbolStore) (forms : Nat) (name : String) : SymbolId × SymbolStore :=
  (s.symbols.size, ⟨s.symbols.push ⟨forms, name, #[]⟩⟩)

def declare (s : SymbolStore) (id : SymbolId) (forms : Nat) (node : Child) : SymbolStore :=
  ⟨s.symbols.modify id (·.declare forms node)⟩

end SymbolStore

abbrev SymbolTable := Std.TreeMap String SymbolId

end PathGuard
