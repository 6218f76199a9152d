import Mathlib.Algebra.GroupWithZero.Nat
import Mathlib.Algebra.Order.BigOperators.Group.List
import Mathlib.Algebra.Order.Group.Nat
import Mathlib.Data.List.Nodup
import PathGuard.Proofs.Tree.Family
/-!
# Nodes in the order of the source

The nodes below a node, constructs before their parts. In a sound tree each of them stands there
once, there is one such order, and what they add to a walk, all together, is no more than all nodes of
the tree add.
-/

namespace PathGuard.Tree

/-- A node and what lies below it, constructs before their parts; `fuel` bounds the depth. -/
def preorderWithin (t : Tree) : (fuel : Nat) → Nat → List Nat
  | 0, _ => []
  | fuel + 1, i => i :: (t.children (some i)).flatMap (t.preorderWithin fuel)

def preorder (t : Tree) (i : Nat) : List Nat := t.preorderWithin (i + 1) i

variable {t : Tree}

theorem Sound.children_nodup (h : t.Sound) (i : Nat) : (t.children (some i)).Nodup := by
  cases hn : t.nodes[i]? with
  | none => simp [children, node?_some, hn]
  | some n =>
    rcases h.formed hn with bare | ⟨r, hc⟩
    · simp [children, node?_some, hn, record?, bare.shape]
    · unfold children
      simp only [node?_some, hn, hc.record]
      have nodup : (r.parts.filterMap (·)).Nodup := hc.nodup
      split
      · next initial condition next statement kind same =>
        rw [Option.some.injEq] at same
        subst same
        have two : List.Sublist ([condition, statement].filterMap (·))
            ((Record.loop initial condition next statement).parts.filterMap (·)) := by
          apply List.Sublist.filterMap
          exact .cons _ (.cons_cons _ (.cons _ (.refl _)))
        exact ((List.Perm.swap ..).filterMap _).nodup_iff.1 (nodup.sublist two)
      · next same _ =>
        rw [Option.some.injEq] at same
        exact same ▸ nodup
      · next none_ => cases none_

theorem Sound.preorderWithin_eq (h : t.Sound) {fuel i : Nat} (enough : i < fuel) :
    t.preorderWithin fuel i = t.preorder i := by
  induction i using Nat.strongRecOn generalizing fuel with
  | ind i ih =>
    cases fuel with
    | zero => omega
    | succ fuel =>
      unfold preorder preorderWithin
      refine congrArg (i :: ·) (List.flatMap_congr fun c part => ?_)
      have less := h.child_lt part
      rw [ih c less (by omega), ih c less less]

theorem Sound.preorder_eq (h : t.Sound) (i : Nat) :
    t.preorder i = i :: (t.children (some i)).flatMap t.preorder := by
  rw [preorder, preorderWithin]
  refine congrArg (i :: ·) (List.flatMap_congr fun c part => ?_)
  exact h.preorderWithin_eq (h.child_lt part)

theorem Sound.mem_preorder (h : t.Sound) {i d : Nat} : d ∈ t.preorder i ↔ t.Below i d := by
  induction i using Nat.strongRecOn with
  | ind i ih =>
    rw [h.preorder_eq, List.mem_cons, List.mem_flatMap]
    constructor
    · rintro (rfl | ⟨c, part, below⟩)
      · exact .self
      · exact .of_child part ((ih c (h.child_lt part)).1 below)
    · intro below
      rcases below.cases_top with same | ⟨c, part, below⟩
      · exact .inl same
      · exact .inr ⟨c, part, (ih c (h.child_lt part)).2 below⟩

theorem Sound.preorder_nodup (h : t.Sound) (i : Nat) : (t.preorder i).Nodup := by
  induction i using Nat.strongRecOn with
  | ind i ih =>
    rw [h.preorder_eq, List.nodup_cons, List.nodup_flatMap]
    refine ⟨fun inside => ?_, fun c part => ih c (h.child_lt part), ?_⟩
    · obtain ⟨c, part, below⟩ := List.mem_flatMap.1 inside
      have := (h.mem_preorder.1 below).le h
      have := h.child_lt part
      omega
    · refine (h.children_nodup i).imp_of_mem fun ha hb different d below below' => ?_
      exact different (Below.apart h ha hb (h.mem_preorder.1 below) (h.mem_preorder.1 below'))

/-- Whether a list has some nodes and all that lies below them, each node before its parts, and what
lies below it before the next of them. -/
inductive InOrder (t : Tree) : List NodeId → List NodeId → Prop where
  | nil : InOrder t [] []
  | cons {i : NodeId} {rest below after : List NodeId} (parts : InOrder t (t.children (some i)) below)
      (others : InOrder t rest after) : InOrder t (i :: rest) (i :: (below ++ after))

theorem Sound.inOrder_preorder (h : t.Sound) (l : List NodeId) :
    t.InOrder l (l.flatMap t.preorder) := by
  have parts (i : Nat) : t.InOrder (t.children (some i)) ((t.children (some i)).flatMap t.preorder) := by
    induction i using Nat.strongRecOn with
    | ind i ih =>
      have lists (l : List Nat) (part : ∀ c ∈ l, c ∈ t.children (some i)) :
          t.InOrder l (l.flatMap t.preorder) := by
        induction l with
        | nil => exact .nil
        | cons c l hl =>
          rw [List.flatMap_cons, h.preorder_eq, List.cons_append]
          apply InOrder.cons
          · exact ih c (h.child_lt (part c (List.mem_cons_self ..)))
          · exact hl fun d hd => part d (List.mem_cons_of_mem _ hd)
      exact lists _ fun c hc => hc
  induction l with
  | nil => exact .nil
  | cons i l ih =>
    rw [List.flatMap_cons, h.preorder_eq, List.cons_append]
    exact .cons (parts i) ih

theorem InOrder.eq_preorder (sound : t.Sound) {l order : List NodeId} (h : t.InOrder l order) :
    order = l.flatMap t.preorder := by
  induction h with
  | nil => rfl
  | @cons i rest below after _ _ first others =>
    calc
      i :: (below ++ after)
        = i :: ((t.children (some i)).flatMap t.preorder ++ rest.flatMap t.preorder) := by
          rw [first, others]
      _ = t.preorder i ++ rest.flatMap t.preorder := by
          rw [sound.preorder_eq i, List.cons_append]
      _ = (i :: rest).flatMap t.preorder := List.flatMap_cons.symm

/-! ### Sums -/

/-- What the nodes below a node, and the node, add together. -/
def weightBelow (t : Tree) (added : NodeId → Nat) (i : Nat) : Nat :=
  ((t.preorder i).map added).sum

theorem totalOf_eq (t : Tree) (added : NodeId → Nat) :
    t.totalOf added = ((List.range t.size).map added).sum := by
  have folded (l : List Nat) (n : Nat) :
      l.foldl (fun n i => n + added i) n = n + (l.map added).sum := by
    induction l generalizing n with
    | nil => simp
    | cons i l ih => simp [ih, Nat.add_assoc]
  rw [totalOf, folded, Nat.zero_add]

theorem sum_le_sum {l l' : List Nat} (nodup : l.Nodup) (subset : l ⊆ l') (added : Nat → Nat) :
    (l.map added).sum ≤ (l'.map added).sum := by
  obtain ⟨m, perm, sublist⟩ := List.subperm_of_subset nodup subset
  rw [← (perm.map added).sum_eq]
  exact (sublist.map added).sum_le_sum fun _ _ => Nat.zero_le _

theorem Sound.weightBelow_le (h : t.Sound) (added : NodeId → Nat) {i : Nat} (there : i < t.size) :
    t.weightBelow added i ≤ t.totalOf added := by
  rw [totalOf_eq]
  refine sum_le_sum (h.preorder_nodup i) (fun d inside => ?_) added
  have := (h.mem_preorder.1 inside).le h
  exact List.mem_range.2 (by omega)

end PathGuard.Tree
