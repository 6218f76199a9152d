import PathGuard.Tree.Record
/-!
# Trees

The nodes of a text, numbered in the order in which they were added, parts before the construct
that they belong to. Records are kept by shape, and a node knows the place of its record among
those of one shape. Which shape to look at is a matter of the node's kind alone: asked for a
record, a node answers with that of its kind's shape at its place, and a node whose kind has no
record with none.

Nodes, records and offsets are counted by natural numbers. Kept in 32 bits, the numbers are the same
for a text of fewer than 2 ^ 32 bytes whose tree has fewer than 2 ^ 32 nodes.
-/

namespace PathGuard

/-- A node: its kind, marks and span, the place of its record, and the construct it belongs to. -/
structure Node where
  kind : NodeKind
  flags : Nat
  start : Nat
  stop : Nat
  slot : Option Nat
  parent : Child
  deriving DecidableEq, Repr, Inhabited

namespace Node

def hasFlag (n : Node) (mask : Nat) : Bool := n.flags &&& mask != 0

end Node

/-! Marks on nodes: how variables are declared, and membership in an optional chain. -/

namespace NodeFlag

def letVariables : Nat := 1

def constVariables : Nat := 2

/-- A link of an optional chain, also one behind the link that is written with `?.`. -/
def optionalChain : Nat := 64

def blockScoped : Nat := letVariables ||| constVariables

end NodeFlag

/-- Nodes by number, and their records by shape and place. -/
structure Tree where
  nodes : Array Node
  pools : Array (Array Record)
  deriving Repr

namespace Tree

def empty : Tree := ⟨#[], Array.replicate Shape.count #[]⟩

instance : Inhabited Tree := ⟨empty⟩

def size (t : Tree) : Nat := t.nodes.size

/-! ### Reading -/

def node? (t : Tree) (id : Child) : Option Node := id.bind fun i => t.nodes[i]?

def pooled? (t : Tree) (shape : Shape) (slot : Nat) : Option Record :=
  t.pools[shape.index]?.bind fun pool => pool[slot]?

def record? (t : Tree) (n : Node) : Option Record :=
  match n.kind.shape?, n.slot with
  | some shape, some slot => t.pooled? shape slot
  | _, _ => none

def recordAt? (t : Tree) (id : Child) : Option Record := (t.node? id).bind t.record?

def kind? (t : Tree) (id : Child) : Option NodeKind := (t.node? id).map Node.kind

def parent (t : Tree) (id : Child) : Child := (t.node? id).bind Node.parent

def identifierText? (t : Tree) (id : Child) : Option String :=
  match t.recordAt? id with
  | some (.identifier text) => some text
  | _ => none

def literalText? (t : Tree) (id : Child) : Option String :=
  match t.recordAt? id with
  | some (.literal text _) => some text
  | _ => none

def skipParenthesesWithin (t : Tree) : (fuel : Nat) → Child → Child
  | 0, id => id
  | fuel + 1, id =>
    match t.recordAt? id with
    | some (.parenthesized expression) => t.skipParenthesesWithin fuel expression
    | _ => id

def skipParentheses (t : Tree) (id : Child) : Child := t.skipParenthesesWithin (t.size + 1) id

/-- The parts of a node that are there, in the order of the source. -/
def children (t : Tree) (id : Child) : List NodeId :=
  match t.node? id with
  | none => []
  | some n =>
    match n.kind, t.record? n with
    | .doStatement, some (.loop _ condition _ statement) => [statement, condition].filterMap (·)
    | _, some record => record.parts.filterMap (·)
    | _, none => []

/-! ### Adding -/

/-- Makes `parent` the construct of those of `parts` that are nodes. -/
def adopt (nodes : Array Node) (parent : NodeId) (parts : List Child) : Array Node :=
  parts.foldl
    (fun nodes part =>
      match part with
      | some i => nodes.modify i fun n => { n with parent := some parent }
      | none => nodes)
    nodes

def addToken (t : Tree) (kind : NodeKind) (start stop : Nat) : NodeId × Tree :=
  match t with
  | ⟨nodes, pools⟩ => (nodes.size, ⟨nodes.push ⟨kind, 0, start, stop, none, none⟩, pools⟩)

def add (t : Tree) (kind : NodeKind) (flags start stop : Nat) (record : Record) : NodeId × Tree :=
  match t with
  | ⟨nodes, pools⟩ =>
    let id := nodes.size
    let shape := record.shape.index
    let slot := (pools[shape]?.map Array.size).getD 0
    (id, ⟨adopt (nodes.push ⟨kind, flags, start, stop, some slot, none⟩) id record.parts,
      pools.modify shape (·.push record)⟩)

/-! ### Changing -/

def modifyNode (t : Tree) (id : Child) (change : Node → Node) : Tree :=
  match id with
  | some i => { t with nodes := t.nodes.modify i change }
  | none => t

end Tree

/-! ### The length of walks

A walk over a tree keeps what is still to be done on a stack, and every node that it comes to adds
to the stack. In a tree each node is come to once, so the walk has no more steps than there are at
the beginning and than all nodes add. Trees that are put together by hand can share parts; then a
node is come to once for each way that leads to it. -/

/-- To how many ways on average a bound leaves room. -/
def waysPerNode : Nat := 4294967296

namespace Tree

def totalOf (t : Tree) (added : NodeId → Nat) : Nat :=
  (List.range t.size).foldl (fun n i => n + added i) 0

/-- How many steps a walk takes at most that begins with `first` steps and adds as many as `added`
says for each node. -/
def walkBound (t : Tree) (first : Nat) (added : NodeId → Nat) : Nat :=
  (first + t.totalOf added + 1) * waysPerNode

end Tree

end PathGuard
