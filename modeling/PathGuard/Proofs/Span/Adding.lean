import PathGuard.Proofs.Span.Rules
/-!
# Laws of adding nodes in place

A node that is added begins where a mark is held and ends where the last token ended, so it lies
around the parts that are held behind the mark, and takes characters when a token was passed since or
one of those parts does.
-/

namespace PathGuard

namespace Item

/-- Whether a part is known to be there and to take characters. -/
def isFirm : Item → Bool
  | piece _ grade => grade.sure && grade.full
  | _ => false

/-- Whether items that are held are, in their order, the parts of a construct, and those are sure that
have to be there. -/
inductive Fills : List Item → List (Child × Bool) → Prop where
  | nil : Fills [] []
  | must {c : Child} {g : Grade} {Δ : List Item} {more : List (Child × Bool)}
      (sure : g.sure = true) (rest : Fills Δ more) : Fills (piece c g :: Δ) ((c, true) :: more)
  | may {c : Child} {g : Grade} {Δ : List Item} {more : List (Child × Bool)} (rest : Fills Δ more) :
      Fills (piece c g :: Δ) ((c, false) :: more)
  | missing {Δ : List Item} {more : List (Child × Bool)} (rest : Fills Δ more) :
      Fills Δ ((none, false) :: more)
  | skip {p : Item} {Δ : List Item} {places : List (Child × Bool)} (other : p.child? = none)
      (rest : Fills Δ places) : Fills (p :: Δ) places

namespace Fills

variable {Δ Δ' : List Item} {places places' : List (Child × Bool)} {text : List Char}
  {s : ParserState}

theorem append (h : Fills Δ places) (h' : Fills Δ' places') :
    Fills (Δ ++ Δ') (places ++ places') := by
  induction h with
  | nil => exact h'
  | must sure rest ih => exact .must sure ih
  | may rest ih => exact .may ih
  | missing rest ih => exact .missing ih
  | skip other rest ih => exact .skip other ih

theorem several {g : Grade} (sure : g.sure = true) (children : List Child) :
    Fills (Item.several g children) (Record.rowPlaces children) := by
  induction children with
  | nil => exact .nil
  | cons c rest ih => exact .must sure ih

theorem parts (h : Fills Δ places) : places.filterMap Prod.fst = Δ.filterMap Item.child? := by
  induction h with
  | nil => rfl
  | must sure rest ih => rw [List.filterMap_cons, List.filterMap_cons, ih]; rfl
  | may rest ih => rw [List.filterMap_cons, List.filterMap_cons, ih]; rfl
  | missing rest ih => rw [List.filterMap_cons, ih]
  | skip other rest ih => rw [List.filterMap_cons, other, ih]

theorem complete (h : Fills Δ places) (holds : ∀ p ∈ Δ, p.Holds text s)
    (clean : s.problems = []) : ∀ p ∈ places, p.2 = true → p.1 ≠ none := by
  induction h with
  | nil => simp
  | must sure rest ih =>
    rw [List.forall_mem_cons] at holds ⊢
    exact ⟨fun _ => holds.1.2 sure clean, ih holds.2⟩
  | may rest ih =>
    rw [List.forall_mem_cons] at holds ⊢
    exact ⟨Bool.noConfusion, ih holds.2⟩
  | missing rest ih =>
    rw [List.forall_mem_cons]
    exact ⟨Bool.noConfusion, ih holds⟩
  | skip other rest ih =>
    rw [List.forall_mem_cons] at holds
    exact ih holds.2

end Fills

end Item

open Item

theorem spans_of_parts (t : Tree) (Δ : List Item) :
    ((Δ.filterMap child?).filterMap t.span?).Sublist (Δ.filterMap (Item.span? t)) := by
  rw [List.filterMap_filterMap]
  induction Δ with
  | nil => exact .slnil
  | cons p Δ ih =>
    rw [List.filterMap_cons, List.filterMap_cons]
    cases p with
    | mark start moved => exact ih.cons _
    | piece child grade =>
      simp only [child?, Item.span?]
      cases child.bind t.span? with
      | none => exact ih
      | some a => exact ih.cons_cons a
    | token start stop => exact ih.cons _
    | note known => exact ih

namespace Stands

variable {text : List Char} {b : Option Nat} {d : Nat} {items Γ Δ : List Item} {s : ParserState}
  {start : Nat} {moved : Bool}

theorem grow (h : Stands text b d items s) {t : Tree} (grows : s.tree.Extends t)
    (pools : t.pools.size = Shape.count) (placed : t.Placed text (s.problems = [])) :
    Stands text b d items { s with tree := t } where
  footing := ⟨h.footing.sits, h.footing.boundary, h.footing.behind, h.footing.noted⟩
  room := h.room
  atDepth := h.atDepth
  deep := h.deep
  pools := pools
  placed := placed
  holds := by
    intro p hp
    have holds := h.holds p hp
    cases p with
    | mark start moved => exact holds
    | piece child grade =>
      refine ⟨fun i hi => ?_, holds.2⟩
      obtain ⟨n, hn, known⟩ := holds.1 i hi
      obtain ⟨q, hq⟩ := grows.node hn
      exact ⟨_, hq, known⟩
    | token start stop => exact holds
    | note known => exact holds
  lined := by
    have same : items.filterMap (Item.span? t) = items.filterMap (Item.span? s.tree) := by
      refine List.filterMap_congr fun p hp => ?_
      have holds := h.holds p hp
      cases p with
      | mark start moved => rfl
      | piece child grade =>
        cases child with
        | none => rfl
        | some i =>
          obtain ⟨n, hn, -⟩ := holds.1 i rfl
          exact Tree.span?_of_extends grows hn
      | token start stop => rfl
      | note known => rfl
    have lined := h.lined
    unfold Lined at lined ⊢
    dsimp only
    rwa [same]

theorem behind_mark (h : Stands text b d (Γ ++ .mark start moved :: Δ) s) {child : Child}
    {grade : Grade} (held : .piece child grade ∈ Δ) {i : Nat} {n : Node} (there : child = some i)
    (hn : s.tree.nodes[i]? = some n) : start ≤ n.start := by
  have lined := h.lined
  unfold Lined at lined
  have marked : (Item.mark start moved :: Δ).filterMap (Item.span? s.tree) =
      (start, start) :: Δ.filterMap (Item.span? s.tree) := rfl
  rw [List.filterMap_append, marked, List.pairwise_append, List.pairwise_cons] at lined
  refine lined.2.1.1 (n.start, n.stop) (List.mem_filterMap.2 ⟨_, held, ?_⟩)
  rw [there]
  exact Tree.span?_of_node hn

theorem full (h : Stands text b d (Γ ++ .mark start moved :: Δ) s)
    (takes : (moved || Δ.any isFirm) = true) (clean : s.problems = []) : start < s.previousEnd := by
  rcases Bool.or_eq_true_iff.1 takes with past | firm
  · exact (h.holds _ (List.mem_append_right _ (List.mem_cons_self ..))).2.2 past clean
  obtain ⟨p, hp, firm⟩ := List.any_eq_true.1 firm
  have holds := h.holds p (List.mem_append_right _ (List.mem_cons_of_mem _ hp))
  cases p with
  | piece child grade =>
    obtain ⟨sure, full⟩ := Bool.and_eq_true_iff.1 firm
    obtain ⟨i, there⟩ := Option.ne_none_iff_exists'.1 (holds.2 sure clean)
    obtain ⟨n, hn, stop, less⟩ := holds.1 i there
    have first := h.behind_mark hp there hn
    exact Nat.lt_of_le_of_lt first (Nat.lt_of_lt_of_le (less full clean) stop)
  | mark start moved => cases firm
  | token start stop => cases firm
  | note known => cases firm

/-- A node that begins at a mark and ends at the last token is in place around the parts that are
held behind the mark, and takes their place. -/
theorem add (h : Stands text b d (Γ ++ .mark start moved :: Δ) s) {k : NodeKind} {r : Record}
    (flags : Nat) (shape : k.shape? = some r.shape) (fills : Item.Fills Δ (r.places k))
    (takes : (moved || Δ.any isFirm) = true)
    (complete : (∀ p ∈ Δ, p.Holds text s) → s.problems = [] → r.Complete text start k) :
    Stands text b d (Γ ++ [.mark start moved, .piece (some s.tree.size) .firm])
      { s with tree := (s.tree.add k flags start s.previousEnd r).2 } := by
  have heldΔ (p : Item) (hp : p ∈ Δ) : p.Holds text s :=
    h.holds p (List.mem_append_right _ (List.mem_cons_of_mem _ hp))
  have marked := h.holds _ (List.mem_append_right _ (List.mem_cons_self ..))
  have fits : s.tree.Fits text k start s.previousEnd r := {
    shape := shape
    begins := marked.1
    ends := h.footing.boundary
    inside := by
      rw [fills.parts]
      intro c hc
      obtain ⟨p, hp, child⟩ := List.mem_filterMap.1 hc
      cases p with
      | piece part grade =>
        obtain ⟨n, hn, stop, -⟩ := (heldΔ _ hp).1 c child
        exact ⟨n, hn, h.behind_mark hp child hn, stop⟩
      | mark start moved => cases child
      | token start stop => cases child
      | note known => cases child
    sorted := by
      have lined := h.lined
      unfold Lined at lined
      rw [List.filterMap_append, List.pairwise_append] at lined
      have inner := (List.pairwise_cons.1 lined.2.1).2
      rw [fills.parts]
      exact inner.sublist (spans_of_parts s.tree Δ) }
  have full := h.full takes
  have grown := h.grow (Tree.add_extends s.tree k flags start s.previousEnd r)
    (Tree.add_pools_size h.pools)
    (h.placed.add h.pools flags fits (fun clean _ => full clean) (complete heldΔ))
  refine grown.settle ⟨fun i hi => ?_, fun _ _ => Option.some_ne_none _⟩ fun a span => ?_
  · obtain rfl := Option.some.inj hi
    obtain ⟨p, hn⟩ := Tree.exists_node_of_add s.tree k flags start s.previousEnd r
    exact ⟨_, hn, Nat.le_refl _, fun _ clean => full clean⟩
  · obtain ⟨p, hn⟩ := Tree.exists_node_of_add s.tree k flags start s.previousEnd r
    change (s.tree.add k flags start s.previousEnd r).2.span? s.tree.size = some a at span
    rw [Tree.span?_of_node hn] at span
    obtain rfl := Option.some.inj span
    rfl

theorem leaf {start stop : Nat} (h : Stands text b d (Γ ++ [.token start stop]) s) {t : Tree}
    (grows : s.tree.Extends t) (pools : t.pools.size = Shape.count)
    (placed : start < stop → IsBoundary text start → IsBoundary text stop →
      t.Placed text (s.problems = []))
    (node : ∃ n, t.nodes[s.tree.size]? = some n ∧ n.start = start ∧ n.stop = stop) :
    Stands text b d (Γ ++ [.piece (some s.tree.size) .firm]) { s with tree := t } := by
  obtain ⟨begins, ends, less, before⟩ := h.holds _ (List.mem_append_right _ (List.mem_cons_self ..))
  have grown := h.grow grows pools (placed less begins ends)
  obtain ⟨n, hn, rfl, rfl⟩ := node
  refine grown.replace (fun p hp => ?_) ?_
  · rcases List.mem_append.1 hp with old | new
    · exact grown.holds p (List.mem_append_left _ old)
    · obtain rfl := List.mem_singleton.1 new
      refine ⟨fun i hi => ?_, fun _ _ => Option.some_ne_none _⟩
      obtain rfl := Option.some.inj hi
      exact ⟨n, hn, before, fun _ _ => less⟩
  · have span : Item.span? t (.piece (some s.tree.size) .firm) = some (n.start, n.stop) :=
      Tree.span?_of_node hn
    rw [List.filterMap_append, List.filterMap_append]
    dsimp only
    rw [List.filterMap_cons, span]
    exact .refl _

/-- The node of a token that is yet to be passed, or of nothing before it. -/
theorem ahead {stop : Nat} (h : Stands text b d Γ s) {k : NodeKind} {g : Grade} {s' : ParserState}
    (bare : k.shape? = none) (boundary : IsBoundary text stop)
    (inside : stop ≤ s.lexer.here.offset)
    (less : k.mayBeEmpty = false ∨ g.full = true → s.lexer.first.offset < stop)
    (onward : ParserState.Onward text
      { s with tree := (s.tree.addToken k s.lexer.first.offset stop).2 } s')
    (previous : s'.previousEnd = s.lexer.here.offset) :
    Stands text b d (Γ ++ [.piece (some s.tree.size) g]) s' := by
  have first := h.footing.sits.first.boundary
  have placed := h.placed.addToken bare first boundary fun _ may => less (.inl may)
  have grown := h.push_mark.grow (Tree.addToken_extends s.tree k s.lexer.first.offset stop)
    h.pools placed
  have later := grown.onward onward
  have node : s'.tree.nodes[s.tree.size]? = some ⟨k, 0, s.lexer.first.offset, stop, none, none⟩ := by
    rw [onward.tree]
    exact Array.getElem?_push_size
  have settled := later.settle (q := .piece (some s.tree.size) g) ⟨fun i hi => ?_, fun _ _ =>
    Option.some_ne_none _⟩ fun a span => ?_
  · exact (Covers.drop (.keep .nil)).stands settled
  · obtain rfl := Option.some.inj hi
    exact ⟨_, node, by rw [previous]; exact inside, fun full _ => less (.inr full)⟩
  · change s'.tree.span? s.tree.size = some a at span
    rw [Tree.span?_of_node node] at span
    obtain rfl := Option.some.inj span
    rfl

end Stands

namespace Record

/-- Whether a construct is complete as soon as its parts are there. -/
def isPlain (k : NodeKind) : Record → Bool
  | classLike .. => false
  | _ => k != .variableDeclarationList

theorem complete_of_plain {text : List Char} {start : Nat} {k : NodeKind} {r : Record}
    (plain : r.isPlain k = true) (parts : ∀ p ∈ r.places k, p.2 = true → p.1 ≠ none) :
    r.Complete text start k where
  parts := parts
  declares := by
    rintro rfl
    cases r <;> cases plain
  heritage := by
    rintro name members rfl
    cases plain

end Record

/-! ### The laws -/

namespace Parser.LaysAt

variable {β : Type} {x : Setting} {ready : Bool} {at_ : Lexer → Prop} {P Δ : List Item}
  {k : NodeKind} {flags start stop : Nat} {moved : Bool} {r : Record} {R : β → List Item}

theorem addWhole (shape : k.shape? = some r.shape) (fills : Item.Fills Δ (r.places k))
    (takes : (moved || Δ.any isFirm) = true)
    (complete : (∀ p ∈ r.places k, p.2 = true → p.1 ≠ none) → (∀ known, .note known ∈ Δ → known = true) →
      r.Complete x.text start k) :
    LaysAt x ready at_ (.mark start moved :: Δ) (addFlagged k flags start r)
      fun c => [.mark start moved, .piece c .firm] :=
  fun _ _ _ _ _ _ stands => stands.add flags shape fills takes fun holds clean =>
    complete (fills.complete holds clean) fun _ held => holds _ held clean

theorem addKeep (shape : k.shape? = some r.shape) (fills : Item.Fills Δ (r.places k))
    (takes : (moved || Δ.any isFirm) = true) (plain : r.isPlain k = true) :
    LaysAt x ready at_ (.mark start moved :: Δ) (addFlagged k flags start r)
      fun c => [.mark start moved, .piece c .firm] :=
  addWhole shape fills takes fun parts _ => Record.complete_of_plain plain parts

theorem addFlagged (shape : k.shape? = some r.shape) (fills : Item.Fills Δ (r.places k))
    (takes : (moved || Δ.any isFirm) = true) (plain : r.isPlain k = true) :
    LaysAt x ready at_ (.mark start moved :: Δ) (Parser.addFlagged k flags start r) (single .firm) :=
  (addKeep shape fills takes plain).imp fun _ => .drop (.keep .nil)

theorem add (shape : k.shape? = some r.shape) (fills : Item.Fills Δ (r.places k))
    (takes : (moved || Δ.any isFirm) = true) (plain : r.isPlain k = true) :
    LaysAt x ready at_ (.mark start moved :: Δ) (Parser.add k start r) (single .firm) :=
  addFlagged shape fills takes plain

theorem addSpanned (shape : k.shape? = some r.shape) (none_ : r.places k = [])
    (plain : r.isPlain k = true) :
    LaysAt x ready at_ [.token start stop] (Parser.addSpanned k start stop r) (single .firm) := by
  intro b d Γ s _ _ stands
  refine stands.leaf (Tree.add_extends s.tree k 0 start stop r) (Tree.add_pools_size stands.pools)
    (fun less begins ends => stands.placed.add stands.pools 0 ?_ (fun _ _ => less) fun _ => ?_) ?_
  · exact ⟨shape, begins, ends, by simp [none_], by simp [none_]⟩
  · exact Record.complete_of_plain plain (by simp [none_])
  · obtain ⟨p, hn⟩ := Tree.exists_node_of_add s.tree k 0 start stop r
    exact ⟨_, hn, rfl, rfl⟩

theorem addToken (bare : k.shape? = none) :
    LaysAt x ready at_ [.token start stop] (Parser.addToken k start stop) (single .firm) := by
  intro b d Γ s _ _ stands
  exact stands.leaf (Tree.addToken_extends s.tree k start stop) stands.pools
    (fun less begins ends => stands.placed.addToken bare begins ends fun _ _ => less)
    ⟨_, Array.getElem?_push_size, rfl, rfl⟩

/-- A node without a record that ends where the last token ended. -/
theorem addBare (bare : k.shape? = none) :
    LaysAt x ready at_ [.mark start true] (Parser.addBare k start) (single .firm) := by
  intro b d Γ s _ _ stands
  have marked := stands.holds _ (List.mem_append_right _ (List.mem_cons_self ..))
  have full := marked.2.2 rfl
  have node : (s.tree.addToken k start s.previousEnd).2.nodes[s.tree.size]? =
      some ⟨k, 0, start, s.previousEnd, none, none⟩ := Array.getElem?_push_size
  have grown := stands.grow (Tree.addToken_extends s.tree k start s.previousEnd) stands.pools
    (stands.placed.addToken bare marked.1 stands.footing.boundary fun clean _ => full clean)
  refine (Covers.drop (.keep .nil)).stands (grown.settle (q := .piece (some s.tree.size) .firm)
    ⟨fun i hi => ?_, fun _ _ => Option.some_ne_none _⟩ fun a span => ?_)
  · obtain rfl := Option.some.inj hi
    exact ⟨_, node, Nat.le_refl _, fun _ clean => full clean⟩
  · change (s.tree.addToken k start s.previousEnd).2.span? s.tree.size = some a at span
    rw [Tree.span?_of_node node] at span
    obtain rfl := Option.some.inj span
    rfl

theorem addAhead {g : Grade} {next : Child → Parser β} (bare : k.shape? = none)
    (notEnd : ∀ l, at_ l → l.kind ≠ .endOfFile) (starts : ∀ l, at_ l → l.first.offset = start)
    (stops : ∀ l, l.Sits x.text → at_ l → IsBoundary x.text stop ∧ stop ≤ l.here.offset)
    (less : ∀ l, l.Sits x.text → at_ l → k.mayBeEmpty = false ∨ g.full = true → start < stop)
    (then_ : ∀ node, Lays x true (P ++ single g node) (next node) R) :
    LaysAt x ready at_ P
      (Parser.addToken k start stop >>= fun node => Parser.advance >>= fun _ => next node) R := by
  intro b d Γ s affords here stands
  obtain rfl := starts _ here
  have footing := stands.footing
  obtain ⟨boundary, inside⟩ := stops _ footing.sits here
  let added : ParserState :=
    { s with tree := (s.tree.addToken k s.lexer.first.offset stop).2 }
  have ground : added.Footing x.text :=
    ⟨footing.sits, footing.boundary, footing.behind, footing.noted⟩
  obtain ⟨onward, lexer, previous⟩ := moves_advance ground
  have later := stands.ahead (g := g) bare boundary inside (less _ footing.sits here) onward previous
  rw [List.append_assoc] at later
  obtain ⟨b', affords', later, back⟩ := later.spare affords stands onward.clean
    (shorter_behind footing (notEnd _ here) lexer)
  exact back _ _ (then_ _ b' d Γ _ affords' trivial later)

end Parser.LaysAt

end PathGuard
