import PathGuard.Proofs.Tree.Layout
/-!
# Sound trees

A tree is sound when every node keeps to the layout of its construct, when its parts come before it
and belong to it alone, and when what belongs to a node is one of that node's parts. Adding a node
whose parts belong to nothing yet keeps a tree sound.
-/

namespace PathGuard

namespace NodeKind

/-- What a construct adds to the depth of what it encloses: parentheses count, and what opens a
scope below that of a function. -/
def weight : NodeKind → Nat
  | .parenthesized | .block | .caseBlock | .forStatement | .forInStatement | .forOfStatement
  | .catchClause => 1
  | _ => 0

/-- What begins to count from zero inside of it. -/
def isBoundary (k : NodeKind) : Bool :=
  k.isFunction || k.isClass || k == .staticBlock || k == .sourceFile

end NodeKind

namespace Tree

/-- Whether the parentheses and scopes inside a node, down to the functions and classes in it, are
nested at most `m` deep. -/
inductive Nested (t : Tree) : Nat → Nat → Prop where
  | bare {m : Nat} {i : Nat} {n : Node} (node : t.nodes[i]? = some n) (slot : n.slot = none) :
      Nested t m i
  | boundary {m : Nat} {i : Nat} {n : Node} (node : t.nodes[i]? = some n)
      (kind : n.kind.isBoundary = true) : Nested t m i
  | inside {m m' : Nat} {i : Nat} {n : Node} {r : Record} (node : t.nodes[i]? = some n)
      (record : t.record? n = some r) (parts : ∀ c, some c ∈ r.parts → Nested t m c)
      (bound : m + n.kind.weight ≤ m') : Nested t m' i

theorem Nested.mono {t : Tree} {m m' : Nat} {i : Nat} (h : t.Nested m i) (le : m ≤ m') :
    t.Nested m' i := by
  cases h with
  | bare node slot => exact .bare node slot
  | boundary node kind => exact .boundary node kind
  | inside node record parts bound => exact .inside node record parts (Nat.le_trans bound le)

theorem Nested.of_extends {t t' : Tree} (h : t.Extends t') {m : Nat} {i : Nat}
    (hn : t.Nested m i) : t'.Nested m i := by
  induction hn with
  | bare node slot =>
    obtain ⟨p, hp⟩ := h.node node
    exact .bare hp slot
  | boundary node kind =>
    obtain ⟨p, hp⟩ := h.node node
    exact .boundary hp kind
  | inside node record parts bound ih =>
    obtain ⟨p, hp⟩ := h.node node
    exact .inside hp (h.record? record) ih bound

def nestLimit : Nat := 1002

/-- A construct in a sound tree: its record fits its kind, and its parts come before it, each of
them once, and belong to it. -/
structure Construct (t : Tree) (i : Nat) (n : Node) (r : Record) : Prop where
  record : t.record? n = some r
  nodup : (r.parts.filterMap id).Nodup
  before : ∀ c, some c ∈ r.parts → c < i
  owns : ∀ c, some c ∈ r.parts → t.parent (some c) = some i
  layout : t.Layout n.kind n.flags r

structure Bare (n : Node) : Prop where
  slot : n.slot = none
  shape : n.kind.shape? = none
  flags : n.flags = 0

structure Sound (t : Tree) : Prop where
  pools : t.pools.size = Shape.count
  formed : ∀ {i : Nat} {n : Node}, t.nodes[i]? = some n → Bare n ∨ ∃ r, t.Construct i n r
  belongs : ∀ {i p : Nat}, t.parent (some i) = some p →
    ∃ n r, t.nodes[p]? = some n ∧ t.Construct p n r ∧ some i ∈ r.parts
  nested : ∀ {i : Nat} {n : Node}, t.nodes[i]? = some n → t.Nested nestLimit i

theorem Construct.there {t : Tree} {i : Nat} {n : Node} {r : Record} (h : t.Construct i n r)
    (c : Nat) (part : some c ∈ r.parts) : ∃ m, t.nodes[c]? = some m := by
  have owned := h.owns c part
  unfold Tree.parent at owned
  obtain ⟨m, hm, -⟩ := Option.bind_eq_some_iff.1 owned
  exact ⟨m, hm⟩

theorem empty_sound : empty.Sound where
  pools := by simp [empty]
  formed := by simp [empty]
  belongs := by simp [empty, parent, node?]
  nested := by simp [empty]

/-! ### Adding to a sound tree -/

variable {t : Tree}

theorem Construct.of_extends {t' : Tree} (h : t.Extends t') {i : Nat} {n m : Node} {r : Record}
    (hc : t.Construct i n r) (same : ∃ p, m = { n with parent := p })
    (kept : ∀ c, some c ∈ r.parts → t'.parent (some c) = t.parent (some c)) :
    t'.Construct i m r := by
  obtain ⟨p, rfl⟩ := same
  exact {
    record := h.record? hc.record
    nodup := hc.nodup
    before := hc.before
    owns := fun c part => (kept c part).trans (hc.owns c part)
    layout := hc.layout.of_extends h hc.there }

theorem parent_addToken (k : NodeKind) (start stop : Nat) (i : Nat) :
    (t.addToken k start stop).2.parent (some i) = t.parent (some i) := by
  unfold parent
  rw [node?_some, node?_some, addToken_nodes]
  by_cases inside : i < t.nodes.size
  · rw [Array.getElem?_push_lt inside, Array.getElem?_eq_getElem inside]
  · by_cases last : i = t.nodes.size
    · subst last
      simp
    · have outside : t.nodes.size + 1 ≤ i := by omega
      rw [Array.getElem?_eq_none (by simpa using outside), Array.getElem?_eq_none (by omega)]

theorem addToken_node_cases {k : NodeKind} {start stop : Nat} {i : Nat} {n : Node}
    (h : (t.addToken k start stop).2.nodes[i]? = some n) :
    t.nodes[i]? = some n ∨ i = t.size ∧ n = ⟨k, 0, start, stop, none, none⟩ := by
  rw [addToken_nodes] at h
  by_cases inside : i < t.nodes.size
  · left
    rwa [Array.getElem?_push_lt inside, ← Array.getElem?_eq_getElem inside] at h
  · right
    have bound := (Array.getElem?_eq_some_iff.1 h).1
    have last : i = t.nodes.size := by
      rw [Array.size_push] at bound
      omega
    subst last
    rw [Array.getElem?_push_size, Option.some.injEq] at h
    exact ⟨rfl, h.symm⟩

theorem Sound.addToken (h : t.Sound) {k : NodeKind} (bare : k.shape? = none) (start stop : Nat) :
    (t.addToken k start stop).2.Sound where
  pools := h.pools
  formed := by
    intro i n hn
    rcases addToken_node_cases hn with old | ⟨rfl, rfl⟩
    · rcases h.formed old with hb | ⟨r, hc⟩
      · exact .inl hb
      · exact .inr ⟨r, hc.of_extends (addToken_extends ..) ⟨n.parent, rfl⟩
          fun c _ => parent_addToken k start stop c⟩
    · exact .inl ⟨rfl, bare, rfl⟩
  belongs := by
    intro i p hp
    rw [parent_addToken] at hp
    obtain ⟨n, r, hn, hc, part⟩ := h.belongs hp
    obtain ⟨q, hq⟩ := (addToken_extends t k start stop).node hn
    exact ⟨_, r, hq, hc.of_extends (addToken_extends ..) ⟨q, rfl⟩
      fun c _ => parent_addToken k start stop c, part⟩
  nested := by
    intro i n hn
    rcases addToken_node_cases hn with old | ⟨rfl, rfl⟩
    · exact (h.nested old).of_extends (addToken_extends ..)
    · exact .bare hn rfl

/-- What an addition needs: parts that are there, belong to nothing, and fit the construct. -/
structure Addable (t : Tree) (k : NodeKind) (flags : Nat) (r : Record) : Prop where
  nodup : (r.parts.filterMap id).Nodup
  free : ∀ c, some c ∈ r.parts → ∃ n, t.nodes[c]? = some n ∧ n.parent = none
  layout : t.Layout k flags r

theorem Addable.outside {k : NodeKind} {flags : Nat} {r : Record} (h : t.Addable k flags r) :
    some t.size ∉ r.parts := by
  intro part
  obtain ⟨n, hn, -⟩ := h.free t.size part
  exact Nat.lt_irrefl _ (lt_size_of_node hn)

section Add

variable {k : NodeKind} {flags start stop : Nat} {r : Record}

theorem parent_add (h : t.Addable k flags r) (i : Nat) :
    (t.add k flags start stop r).2.parent (some i) =
      if some i ∈ r.parts then some t.size else t.parent (some i) := by
  by_cases inside : i < t.nodes.size
  · have old : t.nodes[i]? = some t.nodes[i] := Array.getElem?_eq_getElem inside
    rw [parent_of_node (add_node_old old k flags start stop r), parent_of_node old]
    split <;> rfl
  · have absent : some i ∉ r.parts := by
      intro part
      obtain ⟨n, hn, -⟩ := h.free i part
      exact inside (lt_size_of_node hn)
    rw [if_neg absent]
    have nowhere : t.parent (some i) = none := by
      simp [parent, node?_some, Array.getElem?_eq_none (Nat.le_of_not_lt inside)]
    rw [nowhere]
    by_cases last : i = t.size
    · subst last
      rw [parent_of_node (add_node_new t k flags start stop r h.outside)]
    · have beyond : (t.add k flags start stop r).2.size ≤ i := by
        rw [add_size]
        unfold size at *
        omega
      simp [parent, node?_some, Array.getElem?_eq_none beyond]

theorem add_node_cases (h : t.Addable k flags r) {i : Nat} {n : Node}
    (hn : (t.add k flags start stop r).2.nodes[i]? = some n) :
    (∃ m p, t.nodes[i]? = some m ∧ n = { m with parent := p }) ∨
      i = t.size ∧ n = ⟨k, flags, start, stop, some (t.nextSlot r.shape), none⟩ := by
  by_cases inside : i < t.nodes.size
  · left
    have old : t.nodes[i]? = some t.nodes[i] := Array.getElem?_eq_getElem inside
    rw [add_node_old old, Option.some.injEq] at hn
    split at hn
    · exact ⟨_, _, old, hn.symm⟩
    · exact ⟨_, _, old, hn.symm⟩
  · right
    have bound := lt_size_of_node hn
    rw [add_size] at bound
    have last : i = t.size := by
      unfold size at *
      omega
    subst last
    rw [add_node_new t k flags start stop r h.outside, Option.some.injEq] at hn
    exact ⟨rfl, hn.symm⟩

theorem construct_add (pools : t.pools.size = Shape.count) (h : t.Addable k flags r) :
    (t.add k flags start stop r).2.Construct t.size
      ⟨k, flags, start, stop, some (t.nextSlot r.shape), none⟩ r where
  record := by
    unfold record?
    simp only [h.layout.shape]
    exact add_pooled_new pools k flags start stop r
  nodup := h.nodup
  before := by
    intro c part
    obtain ⟨n, hn, -⟩ := h.free c part
    exact lt_size_of_node hn
  owns := by
    intro c part
    rw [parent_add h, if_pos part]
  layout := by
    refine h.layout.of_extends (add_extends ..) fun c part => ?_
    obtain ⟨n, hn, -⟩ := h.free c part
    exact ⟨n, hn⟩

/-- A construct that was there before keeps its parts: what is added adopts only free nodes. -/
theorem construct_of_add (h : t.Addable k flags r) {i : Nat} {n m : Node} {old : Record}
    (hc : t.Construct i n old) (same : ∃ p, m = { n with parent := p }) :
    (t.add k flags start stop r).2.Construct i m old := by
  refine hc.of_extends (add_extends ..) same fun c part => ?_
  have absent : some c ∉ r.parts := by
    intro taken
    obtain ⟨m, hm, free⟩ := h.free c taken
    have owned := hc.owns c part
    rw [parent_of_node hm, free] at owned
    cases owned
  rw [parent_add h, if_neg absent]

theorem Sound.add (h : t.Sound) (ha : t.Addable k flags r)
    (nested : (t.add k flags start stop r).2.Nested nestLimit t.size) :
    (t.add k flags start stop r).2.Sound where
  pools := by rw [add_pools, Array.size_modify, h.pools]
  formed := by
    intro i n hn
    rcases add_node_cases ha hn with ⟨m, p, old, rfl⟩ | ⟨rfl, rfl⟩
    · rcases h.formed old with hb | ⟨s, hc⟩
      · exact .inl ⟨hb.slot, hb.shape, hb.flags⟩
      · exact .inr ⟨s, construct_of_add ha hc ⟨p, rfl⟩⟩
    · exact .inr ⟨r, construct_add h.pools ha⟩
  belongs := by
    intro i p hp
    rw [parent_add ha] at hp
    split at hp
    · next part =>
      rw [Option.some.injEq] at hp
      subst hp
      exact ⟨_, r, add_node_new t k flags start stop r ha.outside, construct_add h.pools ha, part⟩
    · obtain ⟨n, s, hn, hc, part⟩ := h.belongs hp
      obtain ⟨q, hq⟩ := (add_extends t k flags start stop r).node hn
      exact ⟨_, s, hq, construct_of_add ha hc ⟨q, rfl⟩, part⟩
  nested := by
    intro i n hn
    rcases add_node_cases ha hn with ⟨m, p, old, rfl⟩ | ⟨rfl, rfl⟩
    · exact (h.nested old).of_extends (add_extends ..)
    · exact nested

end Add

end Tree

end PathGuard
