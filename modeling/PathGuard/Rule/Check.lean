import PathGuard.Access.Global
import PathGuard.Rule.Protected
import PathGuard.Rule.Violation
/-!
# Checking a tree

Two things are looked at: accesses in optional chains, which must not denote a protected path or one
that descends from it, and declarations that take properties out of a protected path. An access that
a declaration takes properties out of is left to the declaration. The first violation in the order
of the source, constructs before their parts, is the answer.
-/

namespace PathGuard

/-- How many constructs are passed at most on the way from an access up to a declaration. -/
def maxParentSteps : Nat := 10000

structure Checker where
  tree : Tree
  resolver : Resolver
  paths : ProtectedPaths

namespace Tree

/-- Goes up from `parent` past parentheses, `fuel` at most, `child` being the part come from. The
answer is the first construct that is no parentheses, with the part come from. -/
def pastParentheses (t : Tree) : (fuel : Nat) → (child parent : Child) → Option (Child × Node)
  | 0, _, _ => none
  | fuel + 1, child, parent =>
    match t.node? parent with
    | none => none
    | some n =>
      if n.kind = .parenthesized then t.pastParentheses fuel parent n.parent else some (child, n)

/-- Whether a declaration takes properties out of an expression, which may be in parentheses. -/
def isDestructured (t : Tree) (id : Child) : Bool :=
  match t.pastParentheses maxParentSteps id (t.parent id) with
  | none => false
  | some (child, n) =>
    match t.record? n with
    | some (.variableDeclaration name initializer) =>
      initializer = child && t.kind? name = some .objectBindingPattern
    | _ => false

def takenProperty? (t : Tree) (element : Child) : Option String :=
  match t.recordAt? element with
  | some (.bindingElement false none name _) => t.identifierText? name
  | some (.bindingElement false property _ _) =>
    match t.kind? property, t.recordAt? property with
    | some (.token .identifier), _ => t.identifierText? property
    | some .computedPropertyName, some (.computedProperty expression) =>
      let key := t.skipParentheses expression
      if t.kind? key = some (.token (.literal .string)) then t.literalText? key else none
    | _, _ => none
  | _ => none

end Tree

namespace Checker

def globalPath? (c : Checker) (expression context : Child) : Option AccessPath :=
  (c.tree.path? expression).filter fun p => p.startsGlobal c.tree c.resolver context

def checkAccess? (c : Checker) (id : Child) : Option Violation :=
  match c.tree.node? id with
  | none => none
  | some n =>
    if !n.isOptionalAccess || c.tree.isDestructured id then none
    else
      ((c.globalPath? id id).bind fun p => c.paths.match? p.text).map fun path =>
        ⟨.optionalChaining, path, n.start, n.stop⟩

/-- The violation of a declaration, by the path that properties are taken out of, whether it is
denoted by an optional chain, and the elements of the pattern. -/
def checkPattern? (c : Checker) (path : String) (isOptional : Bool) (elements : List Child) :
    Option (ViolationKind × String) :=
  if isOptional then
    if c.paths.contains path then some (.destructuringWithOptional, path) else none
  else
    elements.findSome? fun element =>
      (c.tree.takenProperty? element).bind fun name =>
        let taken := path ++ "." ++ name
        if c.paths.contains taken then some (.destructuring, taken) else none

/-- The violation of a variable declaration. Only the link that ends the initializer tells whether
it is an optional chain. -/
def checkDeclaration? (c : Checker) (id : Child) : Option Violation :=
  match c.tree.node? id with
  | none => none
  | some n =>
    match c.tree.record? n with
    | some (.variableDeclaration name (some initializer)) =>
      match c.tree.kind? name, c.tree.recordAt? name with
      | some .objectBindingPattern, some (.bindingPattern elements) =>
        let isOptional :=
          ((c.tree.node? (c.tree.skipParentheses (some initializer))).map
            fun value => value.hasFlag NodeFlag.optionalChain).getD false
        (c.globalPath? (some initializer) id).bind fun p =>
          (c.checkPattern? p.text isOptional elements.nodes).map fun (kind, path) =>
            ⟨kind, path, n.start, n.stop⟩
      | _, _ => none
    | _ => none

def checkNode? (c : Checker) (id : NodeId) : Option Violation :=
  match c.tree.node? (some id) with
  | none => none
  | some n =>
    if n.isOptionalAccess then c.checkAccess? (some id)
    else if n.kind = .variableDeclaration then c.checkDeclaration? (some id)
    else none

def checkWithin (c : Checker) : (fuel : Nat) → List NodeId → Option Violation
  | 0, _ => none
  | _ + 1, [] => none
  | fuel + 1, id :: rest =>
    match c.checkNode? id with
    | some violation => some violation
    | none => c.checkWithin fuel (c.tree.children (some id) ++ rest)

def firstViolation? (c : Checker) (root : Child) : Option Violation :=
  if c.paths.isEmpty then none
  else
    c.checkWithin (c.tree.walkBound 1 fun i => (c.tree.children (some i)).length) root.toList

end Checker

end PathGuard
