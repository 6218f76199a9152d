import PathGuard.Proofs.Tree.Growth
/-!
# The operator `in` without brackets around it

In the head of a `for`, `in` is no operator. Brackets and the bodies of functions lift that ban for
what stands in them. A tree shows what they leave: a construct has a bare `in` when it is an `in`
between two operands itself, or when one of the parts has one that nothing of the kind separates from
it.
-/

namespace PathGuard

def Record.isIn : Record → Bool
  | .binary _ (.token (.word .inWord)) _ => true
  | _ => false

namespace Tree

/-- The parts of a construct that neither brackets nor the body of a function separate from it. The
body of an arrow function is one of them when it is an expression. -/
def reached (t : Tree) (k : NodeKind) : Record → List Child
  | .binary left _ right => [left, right]
  | .unary _ operand => [operand]
  | .call callee _ => [callee]
  | .access object _ _ => [object]
  | .conditional condition _ whenFalse => [condition, whenFalse]
  | .taggedTemplate tag _ => [tag]
  | .function _ _ _ _ _ body isArrow =>
    if isArrow && t.kind? body != some .block then [body] else []
  | .classLike _ parent members => parent :: members.nodes
  | .propertyDeclaration _ _ value => [value]
  | .block statements _ => statements.nodes
  | .variableList declarations => declarations.nodes
  | .variableDeclaration name value => [name, value]
  | .bindingPattern elements => elements.nodes
  | .bindingElement _ property name value => [property, name, value]
  | .expressionStatement value | .returnOrThrow value | .exportAssignment value => [value]
  | .ifStatement condition thenStatement elseStatement =>
    [condition, thenStatement, elseStatement]
  | .loop _ condition _ statement =>
    if k = .forStatement then [statement] else [condition, statement]
  | .forInOf _ _ _ statement => [statement]
  | .labeled _ statement => [statement]
  | .switch value caseBlock => [value, caseBlock]
  | .caseClause value statements => value :: statements.nodes
  | .tryStatement tryBlock clause finallyBlock => [tryBlock, clause, finallyBlock]
  | .catchClause declaration body => [declaration, body]
  | .exportDeclaration _ clause _ => [clause]
  | _ => []

/-- Whether a node is of a kind and holds a record of that kind's shape. -/
def Bears (t : Tree) (i : NodeId) (k : NodeKind) (r : Record) : Prop :=
  ∃ n, t.nodes[i]? = some n ∧ n.kind = k ∧ t.record? n = some r ∧ k.shape? = some r.shape

/-- Whether an `in` stands in a construct that neither brackets nor the body of a function separate
from it. -/
inductive HasBare (t : Tree) : NodeId → Prop where
  | operator {i : NodeId} {k : NodeKind} {r : Record} :
    t.Bears i k r → r.isIn = true → HasBare t i
  | part {i j : NodeId} {k : NodeKind} {r : Record} :
    t.Bears i k r → some j ∈ t.reached k r → HasBare t j → HasBare t i

/-- Whether it is certain that no such `in` stands in a construct, however the tree grows: all the
parts are nodes already. -/
inductive Clear (t : Tree) : NodeId → Prop where
  | plain {i : NodeId} {n : Node} :
    t.nodes[i]? = some n → (n.slot = none ∨ ∃ k, n.kind = .token k) → Clear t i
  | construct {i : NodeId} {k : NodeKind} {r : Record} :
    t.Bears i k r → r.isIn = false → (∀ j, some j ∈ t.reached k r → Clear t j) → Clear t i

variable {t t' : Tree} {i j : NodeId} {k : NodeKind} {r : Record}

/-! ### What a node holds -/

theorem Bears.unique {k' : NodeKind} {r' : Record} (h : t.Bears i k r) (h' : t.Bears i k' r') :
    k = k' ∧ r = r' := by
  obtain ⟨n, hn, rfl, hr, -⟩ := h
  obtain ⟨n', hn', rfl, hr', -⟩ := h'
  obtain rfl : n = n' := Option.some.inj (hn.symm.trans hn')
  exact ⟨rfl, Option.some.inj (hr.symm.trans hr')⟩

theorem Bears.of_extends (h : t.Bears i k r) (e : t.Extends t') : t'.Bears i k r := by
  obtain ⟨n, hn, kind, hr, shape⟩ := h
  obtain ⟨p, hp⟩ := e.node hn
  exact ⟨_, hp, kind, e.record? hr, shape⟩

theorem not_bears_of_slot {n : Node} (hn : t.nodes[i]? = some n) (slot : n.slot = none) :
    ¬t.Bears i k r := by
  rintro ⟨n', hn', -, hr, -⟩
  obtain rfl : n = n' := Option.some.inj (hn.symm.trans hn')
  unfold record? at hr
  rw [slot] at hr
  split at hr
  · next found => cases found
  · cases hr

theorem reached_of_token {kind : TokenKind} (h : t.Bears i (.token kind) r) :
    t.reached k r = [] ∧ r.isIn = false := by
  obtain ⟨-, -, -, -, shape⟩ := h
  have text : r.shape = .identifier ∨ r.shape = .literal := by
    cases kind with
    | identifier => exact .inl (Option.some.inj shape).symm
    | privateIdentifier => exact .inl (Option.some.inj shape).symm
    | literal l => exact .inr (Option.some.inj shape).symm
    | _ => cases shape
  cases r with
  | identifier text => exact ⟨rfl, rfl⟩
  | literal text rawText => exact ⟨rfl, rfl⟩
  | _ => rcases text with text | text <;> cases text

/-! ### Growing -/

theorem kind?_of_extends (e : t.Extends t') (h : t.kind? (some i) = some k) :
    t'.kind? (some i) = some k := by
  obtain ⟨n, hn, rfl⟩ := node_of_kind? h
  obtain ⟨p, hp⟩ := e.node hn
  rw [kind?_of_node hp]

theorem mem_reached_arrow {modifiers : Option NodeList} {isAsync isGenerator : Bool}
    {name body : Child} {parameters : NodeList} :
    some j ∈ t.reached k (.function modifiers isAsync isGenerator name parameters body true) ↔
      body = some j ∧ t.kind? (some j) ≠ some .block := by
  simp only [reached, Bool.true_and, bne_iff_ne, List.mem_ite_nil_right, List.mem_singleton]
  constructor
  · rintro ⟨noBlock, rfl⟩
    exact ⟨rfl, noBlock⟩
  · rintro ⟨rfl, noBlock⟩
    exact ⟨noBlock, rfl⟩

theorem mem_reached_of_extends (e : t.Extends t') (h : some j ∈ t'.reached k r) :
    some j ∈ t.reached k r := by
  cases r with
  | function modifiers isAsync isGenerator name parameters body isArrow =>
    simp only [reached, Bool.and_eq_true, bne_iff_ne, List.mem_ite_nil_right,
      List.mem_singleton] at h ⊢
    obtain ⟨⟨arrow, noBlock⟩, rfl⟩ := h
    exact ⟨⟨arrow, fun block => noBlock (kind?_of_extends e block)⟩, rfl⟩
  | _ => exact h

theorem mem_reached_later (e : t.Extends t') (node : ∃ n, t.nodes[j]? = some n)
    (h : some j ∈ t.reached k r) : some j ∈ t'.reached k r := by
  cases r with
  | function modifiers isAsync isGenerator name parameters body isArrow =>
    simp only [reached, Bool.and_eq_true, bne_iff_ne, List.mem_ite_nil_right,
      List.mem_singleton] at h ⊢
    obtain ⟨⟨arrow, noBlock⟩, rfl⟩ := h
    refine ⟨⟨arrow, fun block => noBlock ?_⟩, rfl⟩
    obtain ⟨n, hn⟩ := node
    obtain ⟨p, hp⟩ := e.node hn
    rw [kind?_of_node hp] at block
    rw [kind?_of_node hn]
    exact block
  | _ => exact h

theorem HasBare.node (h : t.HasBare i) : ∃ n, t.nodes[i]? = some n := by
  cases h with
  | operator holds => exact ⟨_, holds.choose_spec.1⟩
  | part holds => exact ⟨_, holds.choose_spec.1⟩

theorem HasBare.of_extends (h : t.HasBare i) (e : t.Extends t') : t'.HasBare i := by
  induction h with
  | operator holds isIn => exact .operator (holds.of_extends e) isIn
  | part holds mem inner ih =>
    exact .part (holds.of_extends e) (mem_reached_later e inner.node mem) ih

theorem Clear.of_extends (h : t.Clear i) (e : t.Extends t') : t'.Clear i := by
  induction h with
  | plain hn without =>
    obtain ⟨p, hp⟩ := e.node hn
    exact .plain hp without
  | construct holds other _ ih =>
    exact .construct (holds.of_extends e) other fun j mem => ih j (mem_reached_of_extends e mem)

theorem Clear.not_hasBare (h : t.Clear i) : ¬t.HasBare i := by
  induction h with
  | @plain i n hn without =>
    have none_ {k : NodeKind} {r : Record} (holds : t.Bears i k r) :
        t.reached k r = [] ∧ r.isIn = false := by
      rcases without with slot | ⟨kind, token⟩
      · exact absurd holds (not_bears_of_slot hn slot)
      · obtain ⟨n', hn', rfl, -⟩ := id holds
        obtain rfl : n = n' := Option.some.inj (hn.symm.trans hn')
        rw [token] at holds
        exact reached_of_token holds
    intro bare
    cases bare with
    | operator holds isIn => exact Bool.false_ne_true ((none_ holds).2.symm.trans isIn)
    | part holds mem _ =>
      rw [(none_ holds).1] at mem
      cases mem
  | construct holds other _ ih =>
    intro bare
    cases bare with
    | operator holds' isIn =>
      obtain ⟨-, rfl⟩ := holds.unique holds'
      exact Bool.false_ne_true (other.symm.trans isIn)
    | part holds' mem inner =>
      obtain ⟨rfl, rfl⟩ := holds.unique holds'
      exact ih _ mem inner

/-! ### Adding -/

theorem add_bears (pools : t.pools.size = Shape.count) (shape : k.shape? = some r.shape)
    (flags start stop : Nat) : (t.add k flags start stop r).2.Bears t.size k r := by
  obtain ⟨n, hn, kind, -, -, record⟩ := add_is pools shape flags start stop
  exact ⟨n, hn, kind, record, shape⟩

end Tree

end PathGuard
