import PathGuard.Grammar.State
import PathGuard.Proofs.Tree.Span
/-!
# How deeply constructs are nested

A construct may hold one of its own kind, and that one another, through the same part each time. Such
a chain is what a walk of the tree has to go down, so its length is what has to be bounded.
-/

namespace PathGuard

/-- The parts through which constructs of one kind are nested in each other: the right operand of an
operator between operands, the operand of one before or behind it, the body of an arrow function, what
stands in parentheses, and what `new` makes an instance of. -/
inductive Descent where
  | rightOperand | operand | arrowBody | inner | callee
  deriving DecidableEq, Repr

namespace Descent

/-- The part itself. A power is left out: its right operand is parsed no deeper than the power. -/
def target : Descent → Record → Child
  | .rightOperand, .binary _ operator right =>
    if operator = .token (.mark .asteriskAsterisk) then none else right
  | .operand, .unary _ part => part
  | .arrowBody, .function _ _ _ _ _ part _ => part
  | .inner, .parenthesized part => part
  | .callee, .call part _ => part
  | _, _ => none

def bound (right rest : Nat) : Descent → Nat
  | .rightOperand => right
  | _ => rest

theorem bound_le {right rest right' rest' : Nat} (first : right ≤ right') (second : rest ≤ rest')
    (d : Descent) : d.bound right rest ≤ d.bound right' rest' := by
  cases d <;> assumption

end Descent

namespace NodeKind

def descent? : NodeKind → Option Descent
  | .binaryExpression => some .rightOperand
  | .prefixUnary | .postfixUnary | .awaitExpression | .yieldExpression => some .operand
  | .arrowFunction => some .arrowBody
  | .parenthesized => some .inner
  | .newExpression => some .callee
  | _ => none

/-- Whether constructs of a kind are neither nested in each other nor the whole text. -/
def isOrdinary (k : NodeKind) : Bool := k.descent?.isNone && k != .sourceFile

theorem descent?_of_isOrdinary {k : NodeKind} (ordinary : k.isOrdinary = true) (d : Descent) :
    k.descent? ≠ some d := by
  rw [Option.isNone_iff_eq_none.1 (Bool.and_eq_true_iff.1 ordinary).1]
  exact nofun

theorem ne_sourceFile_of_isOrdinary {k : NodeKind} (ordinary : k.isOrdinary = true) : k ≠ .sourceFile := by
  rintro rfl
  cases ordinary

theorem ne_sourceFile_of_descent? {k : NodeKind} {d : Descent} (joined : k.descent? = some d) :
    k ≠ .sourceFile := by
  rintro rfl
  cases joined

end NodeKind

namespace Tree

variable {t t' : Tree} {d : Descent} {k : NodeKind} {r : Record} {m m' : Nat}

def Linked (t : Tree) (d : Descent) (i j : Nat) : Prop :=
  ∃ n r, t.nodes[i]? = some n ∧ n.kind.descent? = some d ∧ t.record? n = some r ∧ d.target r = some j

structure Chain (t : Tree) (d : Descent) (is : List Nat) : Prop where
  linked : is.IsChain (t.Linked d)
  joined : ∀ i ∈ is, ∃ n, t.nodes[i]? = some n ∧ n.kind.descent? = some d

theorem linked_iff {i j : Nat} : t.Linked d i j ↔
    ∃ n ∈ t.nodes[i]?, n.kind.descent? = some d ∧ ∃ r ∈ t.record? n, d.target r = some j := by
  constructor
  · rintro ⟨n, r, hn, joined, hr, leads⟩
    exact ⟨n, hn, joined, r, hr, leads⟩
  · rintro ⟨n, hn, joined, r, hr, leads⟩
    exact ⟨n, r, hn, joined, hr, leads⟩

instance : DecidableRel (t.Linked d) := fun _ _ => decidable_of_iff _ linked_iff.symm

instance (is : List Nat) : Decidable (t.Chain d is) :=
  decidable_of_iff (is.IsChain (t.Linked d) ∧ ∀ i ∈ is, ∃ n ∈ t.nodes[i]?, n.kind.descent? = some d)
    ⟨fun h => ⟨h.1, h.2⟩, fun h => ⟨h.linked, h.joined⟩⟩

inductive Within (t : Tree) (d : Descent) : Nat → Nat → Prop where
  | other {m i : Nat} {n : Node} (node : t.nodes[i]? = some n) (kind : n.kind.descent? ≠ some d) :
      Within t d m i
  | link {m i : Nat} {n : Node} {r : Record} (node : t.nodes[i]? = some n)
      (record : t.record? n = some r) (next : ∀ j, d.target r = some j → Within t d m j) :
      Within t d (m + 1) i

theorem Within.mono {i : Nat} (h : t.Within d m i) (le : m ≤ m') : t.Within d m' i := by
  induction h generalizing m' with
  | other node kind => exact .other node kind
  | link node record next ih =>
    obtain ⟨m', rfl⟩ := Nat.exists_eq_add_of_le' (Nat.lt_of_lt_of_le (Nat.succ_pos _) le)
    exact .link node record fun j hj => ih j hj (by omega)

theorem Within.of_extends {i : Nat} (h : t.Within d m i) (e : t.Extends t') : t'.Within d m i := by
  induction h with
  | other node kind =>
    obtain ⟨p, hp⟩ := e.node node
    exact .other hp kind
  | link node record next ih =>
    obtain ⟨p, hp⟩ := e.node node
    exact .link hp (e.record? record) ih

theorem Within.length_le {i : Nat} {is : List Nat} (h : t.Within d m i)
    (chain : t.Chain d (i :: is)) : (i :: is).length ≤ m := by
  induction h generalizing is with
  | other node kind =>
    obtain ⟨n, hn, joined⟩ := chain.joined _ (List.mem_cons_self ..)
    obtain rfl := Option.some.inj (node.symm.trans hn)
    exact absurd joined kind
  | link node record next ih =>
    cases is with
    | nil => exact Nat.succ_le_succ (Nat.zero_le _)
    | cons j is =>
      obtain ⟨⟨n, r, hn, -, hr, leads⟩, rest⟩ := List.isChain_cons_cons.1 chain.linked
      obtain rfl := Option.some.inj (node.symm.trans hn)
      obtain rfl := Option.some.inj (record.symm.trans hr)
      have shorter := ih j leads ⟨rest, fun i hi => chain.joined i (List.mem_cons_of_mem _ hi)⟩
      exact Nat.succ_le_succ shorter

/-! ### Parts -/

/-- Whether the chains that begin with a part, if it is there, are within the bounds for right
operands and for all else. -/
def Low (t : Tree) (child : Child) (right rest : Nat) : Prop :=
  ∀ i, child = some i → ∀ d : Descent, t.Within d (d.bound right rest) i

theorem low_none (t : Tree) (right rest : Nat) : t.Low none right rest := nofun

theorem Low.mono {child : Child} {right rest right' rest' : Nat} (h : t.Low child right rest)
    (first : right ≤ right') (second : rest ≤ rest') : t.Low child right' rest' :=
  fun i hi d => (h i hi d).mono (d.bound_le first second)

theorem Low.of_extends {child : Child} {right rest : Nat} (h : t.Low child right rest)
    (e : t.Extends t') : t'.Low child right rest := fun i hi d => (h i hi d).of_extends e

/-! ### Adding -/

/-- Whether a construct may be added: its record has the shape of its kind, and no chain gets longer
than the depth of nesting allows for. -/
def Admits (t : Tree) (k : NodeKind) (r : Record) : Prop :=
  ∀ d, k.descent? = some d →
    k.shape? = some r.shape ∧ ∀ j, d.target r = some j → t.Within d (2 * maxDepth - 1) j

theorem admits_of_isOrdinary (ordinary : k.isOrdinary = true) : t.Admits k r :=
  fun d joined => absurd joined (NodeKind.descent?_of_isOrdinary ordinary d)

theorem within_add (pools : t.pools.size = Shape.count) (flags start stop : Nat)
    (shape : k.shape? = some r.shape) (next : ∀ j, d.target r = some j → t.Within d m j) :
    (t.add k flags start stop r).2.Within d (m + 1) t.size := by
  obtain ⟨p, hn⟩ := exists_node_of_add t k flags start stop r
  refine .link hn (r := r) ?_ fun j hj => (next j hj).of_extends (add_extends t k flags start stop r)
  unfold record?
  rw [shape]
  exact add_pooled_new pools k flags start stop r

theorem low_add (pools : t.pools.size = Shape.count) (flags start stop : Nat)
    (joined : k.descent? = some d) (shape : k.shape? = some r.shape)
    (next : ∀ j, d.target r = some j → t.Within d m j) {right rest : Nat}
    (room : m + 1 ≤ d.bound right rest) :
    (t.add k flags start stop r).2.Low (some t.size) right rest := by
  rintro i ⟨⟩ d'
  by_cases same : d = d'
  · subst same
    exact (within_add pools flags start stop shape next).mono room
  · obtain ⟨p, hn⟩ := exists_node_of_add t k flags start stop r
    refine .other hn fun joined' => same (Option.some.inj (joined.symm.trans joined'))

theorem low_add_ordinary (t : Tree) (ordinary : k.isOrdinary = true) (flags start stop : Nat)
    (r : Record) (right rest : Nat) :
    (t.add k flags start stop r).2.Low (some t.size) right rest := by
  rintro i ⟨⟩ d
  obtain ⟨p, hn⟩ := exists_node_of_add t k flags start stop r
  exact .other hn (NodeKind.descent?_of_isOrdinary ordinary d)

theorem low_addToken (t : Tree) (ordinary : k.isOrdinary = true) (start stop right rest : Nat) :
    (t.addToken k start stop).2.Low (some t.size) right rest := by
  rintro i ⟨⟩ d
  exact .other Array.getElem?_push_size (NodeKind.descent?_of_isOrdinary ordinary d)

/-- Whether no chain of a tree is longer than twice the depth to which constructs may be nested. -/
def Shallow (t : Tree) : Prop :=
  ∀ (i : Nat) (n : Node), t.nodes[i]? = some n → ∀ d : Descent, t.Within d (2 * maxDepth) i

theorem shallow_empty : empty.Shallow := by
  intro i n hn
  simp [empty] at hn

theorem Shallow.length_le (h : t.Shallow) {is : List Nat} (chain : t.Chain d is) :
    is.length ≤ 2 * maxDepth := by
  cases is with
  | nil => exact Nat.zero_le _
  | cons i is =>
    obtain ⟨n, hn, -⟩ := chain.joined i (List.mem_cons_self ..)
    exact (h i n hn d).length_le chain

theorem Shallow.grow (h : t.Shallow) (e : t.Extends t') (size : t'.size = t.size + 1)
    (new : ∀ d : Descent, t'.Within d (2 * maxDepth) t.size) : t'.Shallow := by
  intro i n hn d
  by_cases old : i < t.size
  · exact (h i _ (Array.getElem?_eq_getElem old) d).of_extends e
  · have inside := lt_size_of_node hn
    obtain rfl : i = t.size := by omega
    exact new d

theorem Shallow.addToken (h : t.Shallow) (ordinary : k.isOrdinary = true) (start stop : Nat) :
    (t.addToken k start stop).2.Shallow := by
  refine h.grow (addToken_extends t k start stop) ?_ fun d => ?_
  · rw [size, addToken_nodes, Array.size_push]
    rfl
  · exact .other Array.getElem?_push_size (NodeKind.descent?_of_isOrdinary ordinary d)

theorem Shallow.add (h : t.Shallow) (pools : t.pools.size = Shape.count) (admits : t.Admits k r)
    (flags start stop : Nat) : (t.add k flags start stop r).2.Shallow := by
  refine h.grow (add_extends t k flags start stop r) (add_size t k flags start stop r) fun d => ?_
  by_cases joined : k.descent? = some d
  · obtain ⟨shape, next⟩ := admits d joined
    exact within_add pools flags start stop shape next
  · obtain ⟨p, hn⟩ := exists_node_of_add t k flags start stop r
    exact .other hn joined

end Tree

end PathGuard
