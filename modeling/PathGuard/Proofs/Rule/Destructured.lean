import PathGuard.Rule.Check
import PathGuard.Proofs.Tree.Family
/-!
# Expressions that properties are taken out of

Going up from an expression past parentheses ends at the declaration whose value it is, if it is
one. Parentheses are never nested so deeply that the walk would stop before.
-/

namespace PathGuard.Tree

variable {t : Tree}

inductive Wraps (t : Tree) (outer : Nat) : (count : Nat) → (inner : Nat) → Prop where
  | self : Wraps t outer 0 outer
  | parenthesized {count p i : Nat} {n : Node} (node : t.nodes[p]? = some n)
      (kind : n.kind = .parenthesized) (record : t.record? n = some (.parenthesized (some i)))
      (outside : Wraps t outer count p) : Wraps t outer (count + 1) i

/-- Whether an expression, in any number of parentheses, is what a declaration with an object
pattern takes properties out of. -/
def Destructured (t : Tree) (i : Nat) : Prop :=
  ∃ (d : Nat) (n : Node) (name : Child) (value count : Nat), t.nodes[d]? = some n ∧
    t.record? n = some (.variableDeclaration name (some value)) ∧
    t.kind? name = some .objectBindingPattern ∧ t.Wraps value count i

theorem Wraps.count_le {m outer count inner : Nat} (h : t.Wraps outer count inner)
    (nested : t.Nested m outer) : count ≤ m ∧ t.Nested (m - count) inner := by
  induction h with
  | self => exact ⟨Nat.zero_le m, nested⟩
  | @parenthesized count p i n node kind record outside ih =>
    obtain ⟨low, deep⟩ := ih
    cases deep with
    | bare node' slot =>
      rw [node, Option.some.injEq] at node'
      subst node'
      simp [record?, slot] at record
    | boundary node' boundary =>
      rw [node, Option.some.injEq] at node'
      subst node'
      rw [kind] at boundary
      cases boundary
    | @inside m' _ _ _ _ node' record' parts bound =>
      rw [node, Option.some.injEq] at node'
      subst node'
      rw [record, Option.some.injEq] at record'
      subst record'
      rw [kind] at bound
      have one : m' + 1 ≤ m - count := bound
      refine ⟨by omega, ?_⟩
      exact (parts i (List.mem_singleton_self _)).mono (by omega)

theorem Wraps.pastParentheses (sound : t.Sound) {outer count inner : Nat}
    (h : t.Wraps outer count inner) (fuel : Nat) :
    t.pastParentheses (count + fuel) (some inner) (t.parent (some inner)) =
      t.pastParentheses fuel (some outer) (t.parent (some outer)) := by
  induction h with
  | self => rw [Nat.zero_add]
  | @parenthesized count p i n node kind record outside ih =>
    have owned := (sound.construct_of_record node record).owns i (List.mem_singleton_self _)
    have more : count + 1 + fuel = count + fuel + 1 := by omega
    rw [more, owned, Tree.pastParentheses]
    simp only [node?_some, node, kind, if_true]
    rw [← ih, parent_of_node node]

/-- Where the walk up ends, and what it has passed. -/
theorem wraps_of_pastParentheses (sound : t.Sound) {fuel i : Nat} {child : Child} {n : Node}
    (h : t.pastParentheses fuel (some i) (t.parent (some i)) = some (child, n)) :
    ∃ outer count d, child = some outer ∧ t.Wraps outer count i ∧
      t.parent (some outer) = some d ∧ t.nodes[d]? = some n := by
  induction fuel generalizing i with
  | zero => cases h
  | succ fuel ih =>
    unfold Tree.pastParentheses at h
    cases owner : t.parent (some i) with
    | none => simp [owner, node?] at h
    | some p =>
      obtain ⟨m, r, node, construct, part⟩ := sound.belongs owner
      simp only [owner, node?_some, node] at h
      split at h
      · next kind =>
        rw [← parent_of_node node] at h
        obtain ⟨outer, count, d, same, wraps, rest⟩ := ih h
        have inside : t.record? m = some (.parenthesized (some i)) := by
          have shape := construct.layout.shape
          rw [kind] at shape
          cases r <;> cases shape
          rw [construct.record, List.mem_singleton.1 part]
        exact ⟨outer, count + 1, d, same, .parenthesized node kind inside wraps, rest⟩
      · next other =>
        rw [Option.some.injEq, Prod.mk.injEq] at h
        obtain ⟨rfl, rfl⟩ := h
        exact ⟨i, 0, p, rfl, .self, owner, node⟩

theorem isDestructured_iff (sound : t.Sound) {i : Nat} :
    t.isDestructured (some i) = true ↔ t.Destructured i := by
  unfold isDestructured
  constructor
  · intro h
    split at h
    · cases h
    · next child n found =>
      obtain ⟨outer, count, d, rfl, wraps, owner, node⟩ := wraps_of_pastParentheses sound found
      split at h
      · next name initializer record =>
        rw [Bool.and_eq_true, decide_eq_true_eq, decide_eq_true_eq] at h
        obtain ⟨rfl, pattern⟩ := h
        exact ⟨d, n, name, outer, count, node, record, pattern, wraps⟩
      · cases h
  · rintro ⟨d, n, name, value, count, node, record, pattern, wraps⟩
    have construct := sound.construct_of_record node record
    obtain ⟨m, there⟩ := construct.there value (List.mem_cons_of_mem _ (List.mem_singleton_self _))
    -- the walk up may pass more parentheses than can be nested, so it comes to the declaration
    have low := (wraps.count_le (sound.nested there)).1
    obtain ⟨rest, enough⟩ : ∃ rest, maxParentSteps = count + (rest + 1) := by
      refine ⟨maxParentSteps - count - 1, ?_⟩
      have limit : nestLimit < maxParentSteps := by decide
      omega
    have owned := construct.owns value (List.mem_cons_of_mem _ (List.mem_singleton_self _))
    have kind : n.kind ≠ .parenthesized := by
      intro kind
      have shape := construct.layout.shape
      rw [kind] at shape
      cases shape
    have found : t.pastParentheses maxParentSteps (some i) (t.parent (some i)) =
        some (some value, n) := by
      rw [enough, wraps.pastParentheses sound, owned, Tree.pastParentheses]
      simp only [node?_some, node, kind, if_false]
    rw [found]
    simp [record, pattern]

end PathGuard.Tree
