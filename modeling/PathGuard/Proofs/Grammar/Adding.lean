import PathGuard.Proofs.Grammar.Rules
/-!
# Laws of adding nodes

A node that is added takes the parts that are held and becomes the one part in their place. What
has to be known of the parts is read off the layout of the construct: their kinds, how deeply they
are nested, and for a link whether it belongs to an optional chain.
-/

namespace PathGuard.Parser

open PathGuard.Part

/-- Whether parts that are held are, in their order, those that a construct names, and none of them
rises by more than `m`. -/
inductive Fills (m : Nat) : List Part → List (Child × (NodeKind → Bool)) → Prop where
  | nil : Fills m [] []
  | part {c : Child} {role : Role} {kinds : NodeKind → Bool} {Δ : List Part}
      {more : List (Child × (NodeKind → Bool))}
      (fits : ∀ k flags, role.admits k flags = true → kinds k = true) (low : role.rise ≤ m)
      (rest : Fills m Δ more) : Fills m (⟨c, role⟩ :: Δ) ((c, kinds) :: more)
  | missing {kinds : NodeKind → Bool} {Δ : List Part} {more : List (Child × (NodeKind → Bool))}
      (rest : Fills m Δ more) : Fills m Δ ((none, kinds) :: more)

namespace Fills

variable {m : Nat} {Δ Δ' : List Part} {places places' : List (Child × (NodeKind → Bool))}

theorem same {c : Child} {kinds : NodeKind → Bool} {rise : Nat} (low : rise ≤ m)
    (rest : Fills m Δ places) : Fills m (⟨c, .of kinds rise⟩ :: Δ) ((c, kinds) :: places) :=
  .part (fun _ _ h => h) low rest

theorem flat {c : Child} {kinds : NodeKind → Bool} (rest : Fills m Δ places) :
    Fills m (⟨c, .of kinds 0⟩ :: Δ) ((c, kinds) :: places) :=
  .same (Nat.zero_le m) rest

theorem append (h : Fills m Δ places) (h' : Fills m Δ' places') :
    Fills m (Δ ++ Δ') (places ++ places') := by
  induction h with
  | nil => exact h'
  | part fits low rest ih => exact .part fits low ih
  | missing rest ih => exact .missing ih

theorem row {role : Role} {kinds : NodeKind → Bool}
    (fits : ∀ k flags, role.admits k flags = true → kinds k = true) (low : role.rise ≤ m)
    (children : List Child) : Fills m (row role children) (children.map (·, kinds)) := by
  induction children with
  | nil => exact .nil
  | cons c rest ih => exact .part fits low ih

theorem children (h : Fills m Δ places) :
    (places.map Prod.fst).filterMap id = Δ.filterMap Part.child := by
  induction h with
  | nil => rfl
  | @part c role kinds Δ more fits low rest ih =>
    rw [List.map_cons, List.filterMap_cons, List.filterMap_cons, ih]
    rfl
  | missing rest ih => exact ih

theorem suits (h : Fills m Δ places) {base bound : Nat} {t : Tree}
    (free : ∀ p ∈ Δ, p.Free base bound t) : ∀ q ∈ places, t.Suits q.2 q.1 := by
  induction h with
  | nil => simp
  | part fits low rest ih =>
    intro q hq
    rcases List.mem_cons.1 hq with rfl | later
    · intro i hi
      obtain ⟨-, n, hn, -, admits, -⟩ := (free _ (List.mem_cons_self ..)).node i hi
      exact ⟨n, hn, fits _ _ admits⟩
    · exact ih (fun p hp => free p (List.mem_cons_of_mem _ hp)) q later
  | missing rest ih =>
    intro q hq
    rcases List.mem_cons.1 hq with rfl | later
    · exact Tree.Suits.none t _
    · exact ih free q later

theorem low (h : Fills m Δ places) : ∀ p ∈ Δ, p.role.rise ≤ m := by
  induction h with
  | nil => simp
  | part fits low rest ih =>
    intro p hp
    rcases List.mem_cons.1 hp with rfl | later
    · exact low
    · exact ih p later
  | missing rest ih => exact ih

theorem mem (h : Fills m Δ places) {i : Nat} (named : some i ∈ places.map Prod.fst) :
    ∃ p ∈ Δ, p.child = some i := by
  have there : i ∈ Δ.filterMap Part.child := by
    rw [← h.children, List.mem_filterMap]
    exact ⟨some i, named, rfl⟩
  rwa [List.mem_filterMap] at there

end Fills

/-- Whether a construct has a record of the shape of its kind and is what its role asks for, when
none of its parts rises by more than `m`. -/
def becomes (m : Nat) (k : NodeKind) (flags : Nat) (shape : Shape) (role : Role) : Bool :=
  k.shape? == some shape && role.admits k flags &&
    (k.isBoundary || m + k.weight ≤ role.rise) && role.rise ≤ 2

/-! ### What an addition leaves -/

section Addition

variable {s₀ s : ParserState} {t : Tree} {Γ Δ Δ' : List Part} {m base bound : Nat} {k : NodeKind}
  {flags start stop : Nat} {r : Record} {role : Role}

/-- What a construct names as a part is a part that is held, in whatever order. -/
theorem Fills.named (fills : Fills m Δ' (r.roles k)) (perm : Δ'.Perm Δ) {i : Nat}
    (part : some i ∈ r.parts) : ∃ p ∈ Δ, p.child = some i := by
  rw [← r.roles_parts k] at part
  obtain ⟨p, hp, child⟩ := fills.mem part
  exact ⟨p, perm.mem_iff.1 hp, child⟩

theorem Fills.addable (fills : Fills m Δ' (r.roles k)) (perm : Δ'.Perm Δ)
    (free : ∀ p ∈ Δ, p.Free base bound t) (sorted : (Δ.filterMap Part.child).Pairwise (· < ·))
    (shape : k.shape? = some r.shape) (marked : t.Marked k flags r) : t.Addable k flags r where
  nodup := by
    rw [← r.roles_parts k, fills.children]
    exact (perm.filterMap _).nodup_iff.2 (sorted.imp fun h => Nat.ne_of_lt h)
  free := by
    intro i part
    obtain ⟨p, hp, child⟩ := fills.named perm part
    obtain ⟨-, n, hn, orphan, -⟩ := (free p hp).node i child
    exact ⟨n, hn, orphan⟩
  layout := ⟨shape, fills.suits fun p hp => free p (perm.mem_iff.1 hp), marked⟩

theorem Fills.nested (fills : Fills m Δ' (r.roles k)) (perm : Δ'.Perm Δ)
    (free : ∀ p ∈ Δ, p.Free base bound t) (pools : t.pools.size = Shape.count)
    (addable : t.Addable k flags r)
    (deepens : k.isBoundary = true ∨ m + k.weight ≤ role.rise) :
    (t.add k flags start stop r).2.Nested (bound + role.rise) t.size := by
  have new := Tree.add_node_new t k flags start stop r addable.outside
  rcases deepens with boundary | enough
  · exact .boundary new boundary
  · refine .inside (m := bound + m) new (Tree.construct_add pools addable).record
      (fun c part => ?_) (by simp only; omega)
    obtain ⟨p, hp, child⟩ := fills.named perm part
    obtain ⟨-, n, hn, -, -, below⟩ := (free p hp).node c child
    have low := fills.low p (perm.mem_iff.2 hp)
    exact (below.mono (by omega)).of_extends (Tree.add_extends ..)

theorem free_add {p : Part} (free : p.Free base bound t)
    (apart : ∀ i, p.child = some i → some i ∉ r.parts) :
    p.Free base bound (t.add k flags start stop r).2 where
  sure := free.sure
  node := by
    intro i hi
    obtain ⟨first, n, hn, orphan, fits, below⟩ := free.node i hi
    refine ⟨first, n, ?_, orphan, fits, below.of_extends (Tree.add_extends ..)⟩
    rw [Tree.add_node_old hn, if_neg (apart i hi)]

theorem held_add (held : Held s₀ (Γ ++ Δ) s) (perm : Δ'.Perm Δ)
    (fills : Fills m Δ' (r.roles k))
    (marked : ∀ base bound t, (∀ p ∈ Δ, p.Free base bound t) → t.Marked k flags r)
    (ok : becomes m k flags r.shape role = true) :
    Held s₀ (Γ ++ one role (some s.tree.size))
      { s with tree := (s.tree.add k flags start stop r).2 } := by
  simp only [becomes, Bool.and_eq_true, beq_iff_eq, Bool.or_eq_true, decide_eq_true_eq] at ok
  obtain ⟨⟨⟨shape, admits⟩, deepens⟩, rises⟩ := ok
  have freeΓ (p : Part) (hp : p ∈ Γ) := held.free p (List.mem_append_left _ hp)
  have freeΔ (p : Part) (hp : p ∈ Δ) := held.free p (List.mem_append_right _ hp)
  have sorted := held.sorted
  rw [List.filterMap_append, List.pairwise_append] at sorted
  obtain ⟨sortedΓ, sortedΔ, ordered⟩ := sorted
  have addable := fills.addable perm freeΔ sortedΔ shape (marked _ _ _ freeΔ)
  have grows := Tree.add_extends s.tree k flags start stop r
  have new := Tree.add_node_new s.tree k flags start stop r addable.outside
  have deep : (s.tree.add k flags start stop r).2.Nested (nestBound s₀.depth + role.rise)
      s.tree.size := fills.nested perm freeΔ held.sound.pools addable deepens
  have limit : nestBound s₀.depth + role.rise ≤ Tree.nestLimit := by
    unfold nestBound Tree.nestLimit maxDepth
    omega
  -- what is held besides was made before the parts, so it is none of them
  have apart (p : Part) (hp : p ∈ Γ) (i : Nat) (child : p.child = some i) : some i ∉ r.parts := by
    intro part
    obtain ⟨q, hq, child'⟩ := fills.named perm part
    have less := ordered i (List.mem_filterMap.2 ⟨p, hp, child⟩) i
      (List.mem_filterMap.2 ⟨q, hq, child'⟩)
    exact Nat.lt_irrefl _ less
  have newest (i : Nat) (hi : i ∈ Γ.filterMap Part.child) : i < s.tree.size := by
    obtain ⟨p, hp, child⟩ := List.mem_filterMap.1 hi
    obtain ⟨-, n, hn, -⟩ := (freeΓ p hp).node i child
    exact Tree.lt_size_of_node hn
  exact {
    sound := held.sound.add addable (deep.mono limit)
    grown := held.grown.trans grows
    kept := by
      intro i hi
      have there : s₀.tree.nodes[i]? = some s₀.tree.nodes[i] := Array.getElem?_eq_getElem hi
      have before := (held.kept i hi).trans there
      rw [there, Tree.add_node_old before, if_neg]
      intro part
      obtain ⟨p, hp, child⟩ := fills.named perm part
      have := ((freeΔ p hp).node i child).1
      omega
    depth := held.depth
    deep := held.deep
    sorted := by
      rw [List.filterMap_append, List.pairwise_append]
      refine ⟨sortedΓ, List.pairwise_singleton .., fun i hi j hj => ?_⟩
      have last : j = s.tree.size := by simpa [one] using hj
      exact last ▸ newest i hi
    free := by
      intro p hp
      rcases List.mem_append.1 hp with old | fresh
      · exact free_add (freeΓ p old) (apart p old)
      · rw [one, List.mem_singleton] at fresh
        subst fresh
        refine ⟨fun _ => Option.some_ne_none _, fun i hi => ?_⟩
        obtain rfl : s.tree.size = i := Option.some.inj hi
        exact ⟨held.grown.size_le, _, new, rfl, admits, deep⟩ }

theorem held_addToken (held : Held s₀ Γ s) (shape : k.shape? = none)
    (admits : role.admits k 0 = true) :
    Held s₀ (Γ ++ one role (some s.tree.size))
      { s with tree := (s.tree.addToken k start stop).2 } := by
  have grows := Tree.addToken_extends s.tree k start stop
  have old {i : Nat} {n : Node} (h : s.tree.nodes[i]? = some n) :
      (s.tree.addToken k start stop).2.nodes[i]? = some n := by
    rw [Tree.addToken_nodes, Array.getElem?_push_lt (Tree.lt_size_of_node h)]
    exact congrArg some (Array.getElem?_eq_some_iff.1 h).2
  have new : (s.tree.addToken k start stop).2.nodes[s.tree.size]? =
      some ⟨k, 0, start, stop, none, none⟩ := by
    rw [Tree.addToken_nodes]
    exact Array.getElem?_push_size
  exact {
    sound := held.sound.addToken shape start stop
    grown := held.grown.trans grows
    kept := by
      intro i hi
      have there : s₀.tree.nodes[i]? = some s₀.tree.nodes[i] := Array.getElem?_eq_getElem hi
      rw [there]
      exact old ((held.kept i hi).trans there)
    depth := held.depth
    deep := held.deep
    sorted := by
      rw [List.filterMap_append, List.pairwise_append]
      refine ⟨held.sorted, List.pairwise_singleton .., fun i hi j hj => ?_⟩
      have last : j = s.tree.size := by simpa [one] using hj
      obtain ⟨p, hp, child⟩ := List.mem_filterMap.1 hi
      obtain ⟨-, n, hn, -⟩ := (held.free p hp).node i child
      exact last ▸ Tree.lt_size_of_node hn
    free := by
      intro p hp
      rcases List.mem_append.1 hp with before | fresh
      · refine ⟨(held.free p before).sure, fun i hi => ?_⟩
        obtain ⟨first, n, hn, orphan, fits, below⟩ := (held.free p before).node i hi
        exact ⟨first, n, old hn, orphan, fits, below.of_extends grows⟩
      · rw [one, List.mem_singleton] at fresh
        subst fresh
        refine ⟨fun _ => Option.some_ne_none _, fun i hi => ?_⟩
        obtain rfl : s.tree.size = i := Option.some.inj hi
        exact ⟨held.grown.size_le, _, new, rfl, admits, .bare new rfl⟩ }

end Addition

/-! ### The laws -/

namespace MakesAt

variable {at_ : TokenKind → Prop} {Δ Δ' : List Part} {k : NodeKind} {flags start stop : Nat}
  {r : Record} {role : Role}

/-- The parts may be held in another order than that of the construct. -/
theorem addReordered (m : Nat) (perm : Δ'.Perm Δ) (fills : Fills m Δ' (r.roles k))
    (marked : ∀ base bound t, (∀ p ∈ Δ, p.Free base bound t) → t.Marked k flags r)
    (ok : becomes m k flags r.shape role = true) :
    MakesAt at_ Δ (addFlagged k flags start r) (one role) :=
  fun _ _ _ _ held => held_add held perm fills marked ok

theorem addFlagged (m : Nat) (fills : Fills m Δ (r.roles k))
    (marked : ∀ base bound t, (∀ p ∈ Δ, p.Free base bound t) → t.Marked k flags r)
    (ok : becomes m k flags r.shape role = true) :
    MakesAt at_ Δ (Parser.addFlagged k flags start r) (one role) :=
  addReordered m (.refl Δ) fills marked ok

theorem add (m : Nat) (fills : Fills m Δ (r.roles k)) (marked : ∀ t : Tree, t.Marked k 0 r)
    (ok : becomes m k 0 r.shape role = true) : MakesAt at_ Δ (Parser.add k start r) (one role) :=
  addFlagged m fills (fun _ _ t _ => marked t) ok

theorem addSpanned (m : Nat) (fills : Fills m Δ (r.roles k)) (marked : ∀ t : Tree, t.Marked k 0 r)
    (ok : becomes m k 0 r.shape role = true) :
    MakesAt at_ Δ (Parser.addSpanned k start stop r) (one role) :=
  fun _ _ _ _ held => held_add held (.refl Δ) fills (fun _ _ t _ => marked t) ok

theorem addToken (shape : k.shape? = none) (admits : role.admits k 0 = true) :
    MakesAt at_ [] (Parser.addToken k start stop) (one role) := by
  intro s₀ Γ s _ held
  rw [List.append_nil] at held
  exact held_addToken held shape admits

theorem addBare (shape : k.shape? = none) (admits : role.admits k 0 = true) :
    MakesAt at_ [] (Parser.addBare k start) (one role) :=
  look looks_previousEnd fun _ => addToken shape admits

end MakesAt

end PathGuard.Parser
