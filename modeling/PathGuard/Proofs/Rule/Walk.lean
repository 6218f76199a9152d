import PathGuard.Proofs.Grammar.Program
import PathGuard.Proofs.Tree.Preorder
import PathGuard.Rule.Check
/-!
# The first violation

The walk of the check comes to every node below the one it begins with, constructs before their
parts, so its answer is the first violation in that order.
-/

namespace PathGuard

namespace Tree

variable {t : Tree}

theorem Sound.length_preorder (sound : t.Sound) (i : Nat) :
    (t.preorder i).length = 1 + t.weightBelow (fun d => (t.children (some d)).length) i := by
  induction i using Nat.strongRecOn with
  | ind i ih =>
    have parts (l : List Nat) (part : ∀ c ∈ l, c ∈ t.children (some i)) :
        (l.flatMap t.preorder).length = l.length +
          ((l.flatMap t.preorder).map fun d => (t.children (some d)).length).sum := by
      induction l with
      | nil => rfl
      | cons c l hl =>
        have rest := hl fun d hd => part d (List.mem_cons_of_mem _ hd)
        have first := ih c (sound.child_lt (part c (List.mem_cons_self ..)))
        unfold weightBelow at first
        rw [List.flatMap_cons, List.length_append, List.map_append, List.sum_append, first, rest,
          List.length_cons]
        omega
    have all := parts _ fun c hc => hc
    unfold weightBelow
    rw [sound.preorder_eq, List.length_cons, List.map_cons, List.sum_cons, all]
    omega

end Tree

namespace Checker

variable {c : Checker}

theorem checkWithin_eq (sound : c.tree.Sound) {fuel : Nat} {stack : List NodeId}
    (enough : (stack.flatMap c.tree.preorder).length < fuel) :
    c.checkWithin fuel stack = (stack.flatMap c.tree.preorder).findSome? c.checkNode? := by
  induction fuel generalizing stack with
  | zero => cases enough
  | succ fuel ih =>
    cases stack with
    | nil => rfl
    | cons i rest =>
      have order : (i :: rest).flatMap c.tree.preorder =
          i :: (c.tree.children (some i) ++ rest).flatMap c.tree.preorder := by
        rw [List.flatMap_cons, sound.preorder_eq, List.cons_append, List.flatMap_append]
      rw [order, List.length_cons] at enough
      rw [order, checkWithin, List.findSome?_cons]
      cases c.checkNode? i with
      | some violation => rfl
      | none => exact ih (Nat.lt_of_succ_lt_succ enough)

theorem firstViolation?_eq (sound : c.tree.Sound) (some_ : c.paths.isEmpty = false) {root : NodeId}
    (there : root < c.tree.size) :
    c.firstViolation? (some root) = (c.tree.preorder root).findSome? c.checkNode? := by
  have length := sound.length_preorder root
  have bound := sound.weightBelow_le (fun d => (c.tree.children (some d)).length) there
  have enough : ([root].flatMap c.tree.preorder).length <
      c.tree.walkBound 1 fun i => (c.tree.children (some i)).length := by
    have ways : 1 ≤ waysPerNode := by decide
    have all := Nat.le_mul_of_pos_right
      (1 + c.tree.totalOf (fun i => (c.tree.children (some i)).length) + 1) ways
    rw [List.flatMap_singleton, length]
    unfold Tree.walkBound
    omega
  have walk := checkWithin_eq sound enough
  rw [List.flatMap_singleton] at walk
  rw [firstViolation?, some_, if_neg Bool.false_ne_true]
  exact walk

/-- Whether a node fails its check: an access in an optional chain the one for these, and a variable
declaration the one for those. -/
inductive Fails (c : Checker) (i : NodeId) (violation : Violation) : Prop where
  | access {n : Node} (node : c.tree.node? (some i) = some n) (optional : n.isOptionalAccess = true)
      (found : c.checkAccess? (some i) = some violation)
  | declaration {n : Node} (node : c.tree.node? (some i) = some n)
      (kind : n.kind = .variableDeclaration)
      (found : c.checkDeclaration? (some i) = some violation)

theorem checkNode?_eq_some {i : NodeId} {violation : Violation} :
    c.checkNode? i = some violation ↔ c.Fails i violation := by
  constructor
  · intro found
    unfold checkNode? at found
    split at found
    · cases found
    · next n node =>
      by_cases optional : n.isOptionalAccess = true
      · rw [if_pos optional] at found
        exact .access node optional found
      · rw [if_neg optional] at found
        split at found
        · next kind => exact .declaration node kind found
        · cases found
  · intro fails
    unfold checkNode?
    cases fails with
    | access node optional found =>
      rw [node]
      exact (if_pos optional).trans found
    | @declaration n node kind found =>
      have other : n.isOptionalAccess = false := by
        simp [Node.isOptionalAccess, Node.isAccess, kind]
      simp only [node, other, kind, if_true, Bool.false_eq_true, if_false, found]

theorem checkNode?_eq_none {i : NodeId} :
    c.checkNode? i = none ↔ ∀ violation, ¬c.Fails i violation := by
  simp only [Option.eq_none_iff_forall_ne_some, Ne, checkNode?_eq_some]

end Checker

/-- The check of a text goes through its nodes in the order of the source, each once, and its answer
is the violation of the first node that fails, whatever names are taken to mean. -/
theorem parseFile_firstViolation (fileName source : String) (resolver : Resolver)
    (paths : ProtectedPaths) (some_ : paths.isEmpty = false) :
    let file := parseFile fileName source
    let c : Checker := ⟨file.tree, resolver, paths⟩
    ∃ root, file.root = some root ∧ (∃ order, file.tree.InOrder [root] order) ∧
      ∀ order, file.tree.InOrder [root] order →
        order.Nodup ∧ (∀ d, d ∈ order ↔ file.tree.Below root d) ∧
        (∀ violation, c.firstViolation? file.root = some violation ↔
          ∃ before i after, order = before ++ i :: after ∧ c.Fails i violation ∧
            ∀ j ∈ before, ∀ other, ¬c.Fails j other) ∧
        (c.firstViolation? file.root = none ↔ ∀ j ∈ order, ∀ other, ¬c.Fails j other) := by
  intro file c
  obtain ⟨sound, root, n, isRoot, node, -⟩ := parseFile_sound fileName source
  refine ⟨root, isRoot, ⟨_, sound.inOrder_preorder [root]⟩, ?_⟩
  intro order inOrder
  have same : order = file.tree.preorder root := by
    rw [inOrder.eq_preorder sound, List.flatMap_singleton]
  have answer : c.firstViolation? file.root = order.findSome? c.checkNode? := by
    rw [isRoot, same]
    exact Checker.firstViolation?_eq (c := c) sound some_ (Tree.lt_size_of_node node)
  rw [answer, same]
  constructor
  · exact sound.preorder_nodup root
  constructor
  · intro d
    exact sound.mem_preorder
  constructor
  · intro violation
    simp only [List.findSome?_eq_some_iff, Checker.checkNode?_eq_some, Checker.checkNode?_eq_none]
  · simp only [List.findSome?_eq_none_iff, Checker.checkNode?_eq_none]

/-- In `a?.b?.c` the outer link comes first, and with `a` protected it is the one that fails. -/
theorem parseFile_firstViolation_outer_link :
    let file := parseFile "link.ts" "a?.b?.c;"
    let c : Checker := ⟨file.tree, .nothingBound, ⟨["a"]⟩⟩
    c.paths.isEmpty = false ∧ ∃ root order before i after, file.root = some root ∧
      file.tree.InOrder [root] order ∧ order = before ++ i :: after ∧
      c.Fails i ⟨.optionalChaining, "a", 0, 7⟩ ∧ ∀ j ∈ before, ∀ other, ¬c.Fails j other := by
  intro file c
  have some_ : c.paths.isEmpty = false := rfl
  obtain ⟨root, isRoot, ⟨order, inOrder⟩, all⟩ :=
    parseFile_firstViolation "link.ts" "a?.b?.c;" .nothingBound ⟨["a"]⟩ some_
  have answer : c.firstViolation? file.root = some ⟨.optionalChaining, "a", 0, 7⟩ := by
    decide +kernel
  obtain ⟨before, i, after, split_, fails, first⟩ := ((all order inOrder).2.2.1 _).1 answer
  exact ⟨some_, root, order, before, i, after, isRoot, inOrder, split_, fails, first⟩

end PathGuard
