import PathGuard.Tree.Basic
/-!
# Access paths

A chain of property accesses such as `process.env["KEY"]` denotes a path when every key in it is
known from the text alone, and the chain starts at an identifier or at `import.meta` or
`new.target`. Parentheses in the chain do not matter.
-/

namespace PathGuard

/-- How many nodes a path passes at most, its start included. A longer chain denotes none. -/
def maxPathNodes : Nat := 1000

/-- Where a path starts: at an identifier, or at a meta property, which nothing can bind. -/
inductive PathBase where
  | identifier (id : NodeId)
  | metaProperty
  deriving DecidableEq, Repr

structure AccessPath where
  segments : List String
  base : PathBase
  isOptional : Bool
  deriving DecidableEq, Repr

namespace AccessPath

def text (p : AccessPath) : String := ".".intercalate p.segments

def shown (p : AccessPath) : String :=
  p.segments.zipIdx.foldl
    (fun text (segment, i) => (if 0 < i then text ++ "." else text) ++ segment) ""

def identifier? (p : AccessPath) : Option NodeId :=
  match p.base with
  | .identifier id => some id
  | .metaProperty => none

end AccessPath

namespace Node

def isAccess (n : Node) : Bool := n.kind = .propertyAccess || n.kind = .elementAccess

def isOptionalAccess (n : Node) : Bool := n.isAccess && n.hasFlag NodeFlag.optionalChain

end Node

namespace Tree

/-- The key of an access, when the text alone tells it. Private names never do. -/
def staticKey? (t : Tree) (access : NodeKind) (key : Child) : Option String :=
  match access, t.kind? key with
  | .propertyAccess, some (.token .identifier) => t.identifierText? key
  | .elementAccess, some (.token (.literal .string)) => t.literalText? key
  | _, _ => none

def metaSegment? : NodeKind → Option String
  | .token (.word .importWord) => some "import"
  | .token (.word .newWord) => some "new"
  | _ => none

/-- Follows a chain inwards past `fuel` nodes at most. `segments` are those met so far, in the order
of the source, and `isOptional` tells whether one of their links is written with `?.`. -/
def pathWithin (t : Tree) : (fuel : Nat) → List String → (isOptional : Bool) → Child →
    Option AccessPath
  | 0, _, _, _ => none
  | _ + 1, _, _, none => none
  | fuel + 1, segments, isOptional, some i =>
    match t.node? (some i) with
    | none => none
    | some n =>
      match n.kind, t.record? n with
      | .propertyAccess, some (.access expression key questionDot)
      | .elementAccess, some (.access expression key questionDot) =>
        (t.staticKey? n.kind key).bind fun segment =>
          t.pathWithin fuel (segment :: segments) (isOptional || questionDot) expression
      | .parenthesized, some (.parenthesized expression) =>
        t.pathWithin fuel segments isOptional expression
      | .token .identifier, some (.identifier name) =>
        some ⟨name :: segments, .identifier i, isOptional⟩
      | .metaProperty, some (.metaProperty keyword name) =>
        match metaSegment? keyword, t.identifierText? name with
        | some first, some second => some ⟨first :: second :: segments, .metaProperty, isOptional⟩
        | _, _ => none
      | _, _ => none

def path? (t : Tree) (id : Child) : Option AccessPath := t.pathWithin maxPathNodes [] false id

end Tree

end PathGuard
