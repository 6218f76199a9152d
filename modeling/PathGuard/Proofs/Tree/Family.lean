import PathGuard.Proofs.Tree.Sound
/-!
# Parents and parts

In a sound tree the parts of a node are the nodes that belong to it, so what lies below a node is
told by going up as well as by going down, and different parts have nothing in common.
-/

namespace PathGuard.Tree

variable {t : Tree}

/-! ### Constructs of sound trees -/

theorem Construct.node_record {i : Nat} {n : Node} {r : Record} (h : t.Construct i n r)
    (hn : t.nodes[i]? = some n) : t.recordAt? (some i) = some r := by
  rw [recordAt?_of_node hn, h.record]

theorem Sound.construct_of_record (h : t.Sound) {i : Nat} {n : Node} {r : Record}
    (hn : t.nodes[i]? = some n) (hr : t.record? n = some r) : t.Construct i n r := by
  rcases h.formed hn with bare | ⟨r', hc⟩
  · rw [record?, bare.shape] at hr
    cases hr
  · have same := hc.record.symm.trans hr
    rw [Option.some.injEq] at same
    exact same ▸ hc

theorem Sound.construct_of_shape (h : t.Sound) {i : Nat} {n : Node} {shape : Shape}
    (hn : t.nodes[i]? = some n) (hs : n.kind.shape? = some shape) :
    ∃ r, t.Construct i n r ∧ r.shape = shape := by
  rcases h.formed hn with bare | ⟨r, hc⟩
  · rw [bare.shape] at hs
    cases hs
  · have same := hc.layout.shape.symm.trans hs
    exact ⟨r, hc, Option.some.inj same⟩

theorem Sound.construct_of_recordAt? (h : t.Sound) {id : Child} {r : Record}
    (hr : t.recordAt? id = some r) :
    ∃ i n, id = some i ∧ t.nodes[i]? = some n ∧ t.Construct i n r := by
  obtain ⟨i, n, rfl, hn, hrec⟩ := exists_node_of_recordAt? hr
  exact ⟨i, n, rfl, hn, h.construct_of_record hn hrec⟩

theorem Construct.part_kind {i : Nat} {n : Node} {r : Record} (h : t.Construct i n r) {c : Nat}
    {kinds : NodeKind → Bool} (part : (some c, kinds) ∈ r.roles n.kind) :
    ∃ m, t.nodes[c]? = some m ∧ kinds m.kind = true :=
  h.layout.suits _ part c rfl

/-! ### Parts -/

/-- The parts of a construct are its children. Only a loop that ends with its condition has them in
another order than its record. -/
theorem Construct.mem_children {i : Nat} {n : Node} {r : Record} (h : t.Construct i n r)
    (hn : t.nodes[i]? = some n) (c : Nat) : c ∈ t.children (some i) ↔ some c ∈ r.parts := by
  have plain : c ∈ r.parts.filterMap (·) ↔ some c ∈ r.parts := by simp
  unfold children
  simp only [node?_some, hn, h.record]
  split
  · next initial condition next statement kind same =>
    rw [Option.some.injEq] at same
    subst same
    have suits := h.layout.suits
    rw [kind] at suits
    -- a loop that ends with its condition has neither of the two other parts
    have nothing (id : Child) (hs : t.Suits NodeKind.isNothing id) : id = none := by
      cases id with
      | none => rfl
      | some j =>
        obtain ⟨m, -, impossible⟩ := hs j rfl
        cases impossible
    have noInitial : initial = none :=
      nothing _ (suits (initial, NodeKind.isNothing) (by simp [Record.roles]))
    have noNext : next = none := nothing _ (suits (next, NodeKind.isNothing) (by simp [Record.roles]))
    subst noInitial noNext
    simp only [Record.parts, List.mem_filterMap, List.mem_cons, List.not_mem_nil]
    constructor
    · rintro ⟨a, rfl | rfl | no, rfl⟩
      · simp
      · simp
      · cases no
    · rintro (no | hc | no | hs | no)
      · cases no
      · exact ⟨condition, .inr (.inl rfl), hc.symm⟩
      · cases no
      · exact ⟨statement, .inl rfl, hs.symm⟩
      · cases no
  · next same _ =>
    rw [Option.some.injEq] at same
    exact same ▸ plain
  · next none_ => cases none_

theorem Sound.mem_children (h : t.Sound) {c i : Nat} :
    c ∈ t.children (some i) ↔ t.parent (some c) = some i := by
  constructor
  · intro part
    cases hn : t.nodes[i]? with
    | none => simp [children, node?_some, hn] at part
    | some n =>
      rcases h.formed hn with bare | ⟨r, hc⟩
      · simp [children, node?_some, hn, record?, bare.shape] at part
      · exact hc.owns c ((hc.mem_children hn c).1 part)
  · intro owned
    obtain ⟨n, r, hn, hc, part⟩ := h.belongs owned
    exact (hc.mem_children hn c).2 part

theorem Sound.child_lt (h : t.Sound) {c i : Nat} (part : c ∈ t.children (some i)) : c < i := by
  obtain ⟨n, r, hn, hc, part⟩ := h.belongs (h.mem_children.1 part)
  exact hc.before c part

/-! ### Below -/

/-- Whether a node lies below `top` or is `top`. -/
inductive Below (t : Tree) (top : Nat) : Nat → Prop where
  | self : Below t top top
  | part {i c : Nat} (above : Below t top i) (part : c ∈ t.children (some i)) : Below t top c

namespace Below

theorem trans {a b c : Nat} (h : t.Below a b) (h' : t.Below b c) : t.Below a c := by
  induction h' with
  | self => exact h
  | part _ part ih => exact .part ih part

theorem of_child {a b c : Nat} (part : b ∈ t.children (some a)) (h : t.Below b c) :
    t.Below a c := (Below.self.part part).trans h

theorem le (sound : t.Sound) {a b : Nat} (h : t.Below a b) : b ≤ a := by
  induction h with
  | self => exact Nat.le_refl a
  | part _ part ih =>
    have := sound.child_lt part
    omega

theorem cases_top {a b : Nat} (h : t.Below a b) :
    b = a ∨ ∃ c ∈ t.children (some a), t.Below c b := by
  induction h with
  | self => exact .inl rfl
  | @part i c _ part ih =>
    rcases ih with rfl | ⟨d, hd, below⟩
    · exact .inr ⟨c, part, .self⟩
    · exact .inr ⟨d, hd, below.part part⟩

theorem linear (sound : t.Sound) {a b c : Nat} (h : t.Below a c) (h' : t.Below b c) :
    t.Below a b ∨ t.Below b a := by
  induction h with
  | self => exact .inr h'
  | @part i c above part ih =>
    cases h' with
    | self => exact .inl (above.part part)
    | @part j _ above' part' =>
      have same := (sound.mem_children.1 part).symm.trans (sound.mem_children.1 part')
      rw [Option.some.injEq] at same
      exact ih (same ▸ above')

theorem apart (sound : t.Sound) {a b c i : Nat} (ha : a ∈ t.children (some i))
    (hb : b ∈ t.children (some i)) (h : t.Below a c) (h' : t.Below b c) : a = b := by
  have between {a b : Nat} (ha : a ∈ t.children (some i)) (hb : b ∈ t.children (some i))
      (h : t.Below a b) : a = b := by
    cases h with
    | self => rfl
    | @part j _ above part =>
      have same := (sound.mem_children.1 part).symm.trans (sound.mem_children.1 hb)
      rw [Option.some.injEq] at same
      have low := (same ▸ above).le sound
      have := sound.child_lt ha
      omega
  rcases linear sound h h' with below | below
  · exact between ha hb below
  · exact (between hb ha below).symm

end Below

end PathGuard.Tree
