import Mathlib.Data.List.Basic
import PathGuard.Tree.Basic
/-!
# Growing trees

Trees only grow: a node that was added keeps its kind, marks, span and record, and only the
construct that it belongs to can still change. So what a node was seen to hold once, it holds in
every later tree.
-/

namespace PathGuard.Tree

/-- `t'` has the nodes of `t`, each as it was but for the construct that it belongs to, and its
records. -/
structure Extends (t t' : Tree) : Prop where
  node : ∀ {i : Nat} {n : Node}, t.nodes[i]? = some n →
    ∃ p, t'.nodes[i]? = some { n with parent := p }
  pool : ∀ {shape : Shape} {slot : Nat} {r : Record}, t.pooled? shape slot = some r →
    t'.pooled? shape slot = some r

def chained (t : Tree) (id : Child) : Bool :=
  ((t.node? id).map fun n => n.hasFlag NodeFlag.optionalChain).getD false

theorem node?_some (t : Tree) (i : Nat) : t.node? (some i) = t.nodes[i]? := rfl

theorem record?_parent (t : Tree) (n : Node) (p : Child) :
    t.record? { n with parent := p } = t.record? n := rfl

theorem recordAt?_of_node {t : Tree} {i : Nat} {n : Node} (h : t.nodes[i]? = some n) :
    t.recordAt? (some i) = t.record? n := by
  simp [recordAt?, node?_some, h]

theorem kind?_of_node {t : Tree} {i : Nat} {n : Node} (h : t.nodes[i]? = some n) :
    t.kind? (some i) = some n.kind := by
  simp [kind?, node?_some, h]

theorem parent_of_node {t : Tree} {i : Nat} {n : Node} (h : t.nodes[i]? = some n) :
    t.parent (some i) = n.parent := by
  simp [parent, node?_some, h]

theorem chained_of_node {t : Tree} {i : Nat} {n : Node} (h : t.nodes[i]? = some n) :
    t.chained (some i) = n.hasFlag NodeFlag.optionalChain := by
  simp [chained, node?_some, h]

theorem exists_node_of_recordAt? {t : Tree} {id : Child} {r : Record} (h : t.recordAt? id = some r) :
    ∃ i n, id = some i ∧ t.nodes[i]? = some n ∧ t.record? n = some r := by
  unfold recordAt? at h
  obtain ⟨n, hn, hr⟩ := Option.bind_eq_some_iff.1 h
  cases id with
  | none => simp [node?] at hn
  | some i => exact ⟨i, n, rfl, hn, hr⟩

theorem node_of_kind? {t : Tree} {i : Nat} {k : NodeKind} (kind : t.kind? (some i) = some k) :
    ∃ n, t.nodes[i]? = some n ∧ n.kind = k := by
  rw [kind?, node?_some, Option.map_eq_some_iff] at kind
  exact kind

theorem lt_size_of_node {t : Tree} {i : Nat} {n : Node} (h : t.nodes[i]? = some n) :
    i < t.size := (Array.getElem?_eq_some_iff.1 h).1

namespace Extends

variable {t t' t'' : Tree}

theorem refl (t : Tree) : t.Extends t where
  node := fun {_ n} h => ⟨n.parent, h⟩
  pool := fun h => h

theorem trans (h : t.Extends t') (h' : t'.Extends t'') : t.Extends t'' where
  node := by
    intro i n hn
    obtain ⟨p, hp⟩ := h.node hn
    obtain ⟨q, hq⟩ := h'.node hp
    exact ⟨q, hq⟩
  pool := fun hr => h'.pool (h.pool hr)

theorem size_le (h : t.Extends t') : t.size ≤ t'.size := by
  rcases Nat.eq_zero_or_pos t.size with empty | positive
  · omega
  · have inside : t.size - 1 < t.nodes.size := Nat.sub_one_lt_of_lt positive
    have last : t.nodes[t.size - 1]? = some t.nodes[t.size - 1] :=
      Array.getElem?_eq_getElem inside
    obtain ⟨p, hp⟩ := h.node last
    have := lt_size_of_node hp
    omega

theorem record? (h : t.Extends t') {n : Node} {r : Record} (hr : t.record? n = some r) :
    t'.record? n = some r := by
  unfold Tree.record? at *
  split at hr
  · exact h.pool hr
  · cases hr

theorem chained (h : t.Extends t') {i : Nat} {n : Node} (hn : t.nodes[i]? = some n) :
    t'.chained (some i) = t.chained (some i) := by
  obtain ⟨p, hp⟩ := h.node hn
  rw [chained_of_node hp, chained_of_node hn]
  rfl

end Extends

/-! ### Adding -/

theorem getElem?_adopt (nodes : Array Node) (p : Nat) (parts : List Child) (i : Nat) :
    (adopt nodes p parts)[i]? =
      nodes[i]?.map fun n => if some i ∈ parts then { n with parent := some p } else n := by
  induction parts generalizing nodes with
  | nil => simp [adopt]
  | cons part rest ih =>
    have unfolded : adopt nodes p (part :: rest) =
        adopt (adopt nodes p [part]) p rest := by simp [adopt]
    rw [unfolded, ih]
    cases part with
    | none => simp [adopt]
    | some j =>
      simp only [adopt, List.foldl_cons, List.foldl_nil, Array.getElem?_modify]
      by_cases same : j = i
      · subst same
        cases nodes[j]? <;> simp
      · have other : ¬ i = j := fun h => same h.symm
        simp [same, other]

theorem addToken_nodes (t : Tree) (k : NodeKind) (start stop : Nat) :
    (t.addToken k start stop).2.nodes = t.nodes.push ⟨k, 0, start, stop, none, none⟩ := rfl

theorem addToken_extends (t : Tree) (k : NodeKind) (start stop : Nat) :
    t.Extends (t.addToken k start stop).2 where
  node := by
    intro i n h
    have inside := lt_size_of_node h
    refine ⟨n.parent, ?_⟩
    rw [addToken_nodes, Array.getElem?_push_lt inside]
    exact congrArg some (Array.getElem?_eq_some_iff.1 h).2
  pool := fun h => h

def nextSlot (t : Tree) (shape : Shape) : Nat := (t.pools[shape.index]?.map Array.size).getD 0

theorem add_nodes (t : Tree) (k : NodeKind) (flags start stop : Nat) (r : Record) :
    (t.add k flags start stop r).2.nodes =
      adopt (t.nodes.push ⟨k, flags, start, stop, some (t.nextSlot r.shape), none⟩) t.size
        r.parts := rfl

theorem add_pools (t : Tree) (k : NodeKind) (flags start stop : Nat) (r : Record) :
    (t.add k flags start stop r).2.pools = t.pools.modify r.shape.index (·.push r) := rfl

theorem add_size (t : Tree) (k : NodeKind) (flags start stop : Nat) (r : Record) :
    (t.add k flags start stop r).2.size = t.size + 1 := by
  have length (nodes : Array Node) (p : Nat) (parts : List Child) :
      (adopt nodes p parts).size = nodes.size := by
    induction parts generalizing nodes with
    | nil => rfl
    | cons part rest ih =>
      have unfolded : adopt nodes p (part :: rest) =
          adopt (adopt nodes p [part]) p rest := by simp [adopt]
      rw [unfolded, ih]
      cases part <;> simp [adopt]
  unfold size
  rw [add_nodes, length, Array.size_push]

theorem add_node_old {t : Tree} {i : Nat} {n : Node} (h : t.nodes[i]? = some n) (k : NodeKind)
    (flags start stop : Nat) (r : Record) :
    (t.add k flags start stop r).2.nodes[i]? =
      some (if some i ∈ r.parts then { n with parent := some t.size } else n) := by
  have inside := lt_size_of_node h
  rw [add_nodes, getElem?_adopt, Array.getElem?_push_lt inside]
  rw [Array.getElem?_eq_getElem inside, Option.some.injEq] at h
  simp [h]

theorem add_node_new (t : Tree) (k : NodeKind) (flags start stop : Nat) (r : Record)
    (outside : some t.size ∉ r.parts) :
    (t.add k flags start stop r).2.nodes[t.size]? =
      some ⟨k, flags, start, stop, some (t.nextSlot r.shape), none⟩ := by
  rw [add_nodes, getElem?_adopt, size, Array.getElem?_push_size, Option.map_some]
  exact congrArg some (if_neg outside)

theorem add_node_last (t : Tree) (k : NodeKind) (flags start stop : Nat) (r : Record) :
    ∃ p, (t.add k flags start stop r).2.nodes[t.size]? =
      some ⟨k, flags, start, stop, some (t.nextSlot r.shape), p⟩ := by
  rw [add_nodes, getElem?_adopt, size, Array.getElem?_push_size, Option.map_some]
  split
  · exact ⟨_, rfl⟩
  · exact ⟨_, rfl⟩

theorem index_lt_count (s : Shape) : s.index < Shape.count := by
  cases s <;> decide

theorem add_pooled_old {t : Tree} {shape : Shape} {slot : Nat} {old : Record}
    (h : t.pooled? shape slot = some old) (k : NodeKind) (flags start stop : Nat) (r : Record) :
    (t.add k flags start stop r).2.pooled? shape slot = some old := by
  unfold pooled? at *
  rw [add_pools, Array.getElem?_modify]
  obtain ⟨pool, hp, hr⟩ := Option.bind_eq_some_iff.1 h
  have inside := (Array.getElem?_eq_some_iff.1 hr).1
  split
  · simp only [hp, Option.map_some, Option.bind_some]
    rw [Array.getElem?_push_lt inside, ← Array.getElem?_eq_getElem inside, hr]
  · simp only [hp, Option.bind_some, hr]

theorem add_pooled_new {t : Tree} (pools : t.pools.size = Shape.count) (k : NodeKind)
    (flags start stop : Nat) (r : Record) :
    (t.add k flags start stop r).2.pooled? r.shape (t.nextSlot r.shape) = some r := by
  have inside : r.shape.index < t.pools.size := pools ▸ index_lt_count r.shape
  unfold pooled? nextSlot
  rw [add_pools, Array.getElem?_modify]
  simp [Array.getElem?_eq_getElem inside]

theorem add_extends (t : Tree) (k : NodeKind) (flags start stop : Nat) (r : Record) :
    t.Extends (t.add k flags start stop r).2 where
  node := by
    intro i n h
    have now := add_node_old h k flags start stop r
    split at now
    · exact ⟨_, now⟩
    · exact ⟨n.parent, now⟩
  pool := fun h => add_pooled_old h k flags start stop r

/-! ### What a node is -/

/-- Whether a node is of a kind, has a span and holds a record. -/
def Is (t : Tree) (i : Nat) (k : NodeKind) (start stop : Nat) (r : Record) : Prop :=
  ∃ n, t.nodes[i]? = some n ∧ n.kind = k ∧ n.start = start ∧ n.stop = stop ∧ t.record? n = some r

theorem Is.of_extends {t t' : Tree} {i : Nat} {k : NodeKind} {start stop : Nat} {r : Record}
    (is : t.Is i k start stop r) (h : t.Extends t') : t'.Is i k start stop r := by
  obtain ⟨n, hn, kind, first, last, record⟩ := is
  obtain ⟨p, hn'⟩ := h.node hn
  exact ⟨_, hn', kind, first, last, h.record? record⟩

theorem add_is {t : Tree} (pools : t.pools.size = Shape.count) {k : NodeKind} {r : Record}
    (shape : k.shape? = some r.shape) (flags start stop : Nat) :
    (t.add k flags start stop r).2.Is t.size k start stop r := by
  have pooled := add_pooled_new pools k flags start stop r
  obtain ⟨p, hn⟩ := add_node_last t k flags start stop r
  refine ⟨_, hn, rfl, rfl, rfl, ?_⟩
  unfold record?
  simp only [shape]
  exact pooled

end PathGuard.Tree
