import PathGuard.Grammar.Phrase
import PathGuard.Proofs.Grammar.Rules
import PathGuard.Proofs.Tree.Span
/-!
# Where parsers lay their parts

While a construct is parsed, some places and parts are held: where it began, the parts that were
made for it, and what was found out on the way. They lie behind each other in the text, before the
current token. `LaysAt x ready at_ before act after` says that `act`, called at a token that satisfies
`at_` by one who holds `before`, leaves `after` in their place.

Two things are known only as long as no problem was noted: that a part is there, and that the text and
the depth that are left bound how many phrases may still be opened inside each other. A parser that is
`ready` has a phrase to spare.
-/

namespace PathGuard

/-- What is known of a part when nothing is wrong: that it is there, and if it is there, that it takes
characters. -/
structure Grade where
  sure : Bool
  full : Bool

namespace Grade

def loose : Grade := ⟨false, false⟩

def there : Grade := ⟨true, false⟩

def firm : Grade := ⟨true, true⟩

end Grade

/-- What is held while a construct is parsed: a place where something begins, and whether a token was
passed since; a part; a token that was passed; something that was found out. -/
inductive Item where
  | mark (start : Nat) (moved : Bool)
  | piece (child : Child) (grade : Grade)
  | token (start stop : Nat)
  | note (holds : Bool)

namespace Item

/-- From where to where an item lies. -/
def span? (t : Tree) : Item → Option (Nat × Nat)
  | mark start _ => some (start, start)
  | piece child _ => child.bind t.span?
  | token start stop => some (start, stop)
  | note _ => none

def Holds (text : List Char) (s : ParserState) : Item → Prop
  | mark start moved => IsBoundary text start ∧ start ≤ s.lexer.first.offset ∧
    (moved = true → s.problems = [] → start < s.previousEnd)
  | piece child grade =>
    (∀ i, child = some i → ∃ n, s.tree.nodes[i]? = some n ∧ n.stop ≤ s.previousEnd ∧
      (grade.full = true → s.problems = [] → n.start < n.stop)) ∧
    (grade.sure = true → s.problems = [] → child ≠ none)
  | token start stop => IsBoundary text start ∧ IsBoundary text stop ∧ start < stop ∧
    stop ≤ s.previousEnd
  | note holds => s.problems = [] → holds = true

def single (grade : Grade) (child : Child) : List Item := [piece child grade]

def several (grade : Grade) (children : List Child) : List Item := children.map (piece · grade)

def child? : Item → Child
  | piece child _ => child
  | _ => none

/-- An item behind which a token was passed. -/
def pass : Item → Item
  | mark start _ => mark start true
  | i => i

theorem several_pass (grade : Grade) (children : List Child) :
    (several grade children).map pass = several grade children := by
  rw [several, List.map_map]
  rfl

end Item

/-- Items where one lies behind the other. -/
def Lined (t : Tree) (items : List Item) : Prop :=
  (items.filterMap (Item.span? t)).Pairwise fun a b => a.2 ≤ b.1

namespace ParserState

/-- Whether a parser stands at a token of a text, behind the end of the token before it, and has
noted a problem where it says so. -/
structure Footing (text : List Char) (s : ParserState) : Prop where
  sits : s.lexer.Sits text
  boundary : IsBoundary text s.previousEnd
  behind : s.previousEnd ≤ s.lexer.first.offset
  noted : s.lastProblem ≠ none → s.problems ≠ []

/-- Whether a parser stands in one state after another one, without having added to the tree. -/
structure Onward (text : List Char) (s s' : ParserState) : Prop where
  footing : s'.Footing text
  tree : s'.tree = s.tree
  depth : s'.depth = s.depth
  clean : s'.problems = [] → s.problems = []
  previous : s.previousEnd ≤ s'.previousEnd
  first : s.lexer.first.offset ≤ s'.lexer.first.offset
  left : s'.lexer.first.rest.length ≤ s.lexer.first.rest.length

variable {text : List Char} {s s' s'' : ParserState}

theorem Onward.refl (h : s.Footing text) : Onward text s s :=
  ⟨h, rfl, rfl, id, Nat.le_refl _, Nat.le_refl _, Nat.le_refl _⟩

theorem Onward.trans (h : Onward text s s') (h' : Onward text s' s'') : Onward text s s'' where
  footing := h'.footing
  tree := h'.tree.trans h.tree
  depth := h'.depth.trans h.depth
  clean := fun clean => h.clean (h'.clean clean)
  previous := Nat.le_trans h.previous h'.previous
  first := Nat.le_trans h.first h'.first
  left := Nat.le_trans h'.left h.left

end ParserState

/-- What is known when a parser has come to `s` and holds some items. As long as no problem was noted,
the text and the depth that are left are within the `budget`; a parser without one has noted a
problem. -/
structure Stands (text : List Char) (budget : Option Nat) (depth : Nat) (items : List Item)
    (s : ParserState) : Prop where
  footing : s.Footing text
  room : s.problems = [] →
    ∃ m, budget = some m ∧ s.lexer.first.rest.length + (maxDepth - depth) ≤ m
  atDepth : s.depth = depth
  deep : depth ≤ maxDepth
  pools : s.tree.pools.size = Shape.count
  placed : s.tree.Placed text (s.problems = [])
  holds : ∀ p ∈ items, p.Holds text s
  lined : Lined s.tree items

namespace Item

variable {text : List Char} {s s' : ParserState} {p : Item}

theorem Holds.onward (h : p.Holds text s) (o : s.Onward text s') : p.Holds text s' := by
  have previous := o.previous
  cases p with
  | mark start moved =>
    obtain ⟨boundary, before, after⟩ := h
    refine ⟨boundary, Nat.le_trans before o.first, fun moved clean => ?_⟩
    exact Nat.lt_of_lt_of_le (after moved (o.clean clean)) previous
  | piece child grade =>
    obtain ⟨node, sure⟩ := h
    refine ⟨fun i hi => ?_, fun known clean => sure known (o.clean clean)⟩
    obtain ⟨n, hn, stop, full⟩ := node i hi
    rw [o.tree]
    exact ⟨n, hn, Nat.le_trans stop previous, fun known clean => full known (o.clean clean)⟩
  | token start stop =>
    obtain ⟨begins, ends, less, before⟩ := h
    exact ⟨begins, ends, less, Nat.le_trans before previous⟩
  | note holds => exact fun clean => h (o.clean clean)

theorem Holds.before (h : p.Holds text s) (footing : s.Footing text) {a : Nat × Nat}
    (span : p.span? s.tree = some a) : a.2 ≤ s.lexer.first.offset := by
  have behind := footing.behind
  cases p with
  | mark start moved =>
    obtain rfl := Option.some.inj span
    exact h.2.1
  | piece child grade =>
    obtain ⟨i, rfl, spans⟩ := Option.bind_eq_some_iff.1 span
    obtain ⟨n, hn, stop, -⟩ := h.1 i rfl
    rw [Tree.span?_of_node hn] at spans
    obtain rfl := Option.some.inj spans
    exact Nat.le_trans stop behind
  | token start stop =>
    obtain rfl := Option.some.inj span
    exact Nat.le_trans h.2.2.2 behind
  | note holds => cases span

end Item

namespace Stands

variable {text : List Char} {b b' : Option Nat} {d : Nat} {items more : List Item}
  {s s' : ParserState}

theorem onward (h : Stands text b d items s) (o : s.Onward text s') :
    Stands text b d items s' where
  footing := o.footing
  room := by
    intro clean
    obtain ⟨m, rfl, enough⟩ := h.room (o.clean clean)
    have left := o.left
    exact ⟨m, rfl, by omega⟩
  atDepth := o.depth.trans h.atDepth
  deep := h.deep
  pools := o.tree ▸ h.pools
  placed := by
    intro i n hn
    rw [o.tree] at hn ⊢
    obtain ⟨settled, whole⟩ := h.placed i n hn
    exact ⟨settled, fun clean => whole (o.clean clean)⟩
  holds := fun p hp => (h.holds p hp).onward o
  lined := o.tree ▸ h.lined

theorem rebudget (h : Stands text b d items s) (wrong : s.problems ≠ []) :
    Stands text b' d items s :=
  { h with room := fun clean => absurd clean wrong }

theorem replace (h : Stands text b d items s) (holds : ∀ p ∈ more, p.Holds text s)
    (sub : (more.filterMap (Item.span? s.tree)).Sublist (items.filterMap (Item.span? s.tree))) :
    Stands text b d more s :=
  { h with
    holds := holds
    lined := h.lined.sublist sub }

theorem push (h : Stands text b d items s) {p : Item} (holds : p.Holds text s)
    (behind : ∀ a, p.span? s.tree = some a → s.lexer.first.offset ≤ a.1) :
    Stands text b d (items ++ [p]) s :=
  { h with
    holds := by
      intro q hq
      rcases List.mem_append.1 hq with old | new
      · exact h.holds q old
      · rw [List.mem_singleton] at new
        exact new ▸ holds
    lined := by
      unfold Lined
      rw [List.filterMap_append, List.pairwise_append]
      refine ⟨h.lined, ?_, fun a ha c hc => ?_⟩
      · cases span : p.span? s.tree <;> simp [span]
      · obtain ⟨q, hq, span⟩ := List.mem_filterMap.1 ha
        obtain ⟨q', hq', span'⟩ := List.mem_filterMap.1 hc
        rw [List.mem_singleton] at hq'
        subst hq'
        exact Nat.le_trans ((h.holds q hq).before h.footing span) (behind c span') }

end Stands

/-! ### Forgetting -/

namespace Item

/-- Items may be dropped, less may be known of a part or a place, and missing parts may be added: those
that need not be there, and any where a problem was noted. -/
inductive Covers : List Item → List Item → Prop where
  | nil : Covers [] []
  | keep {p : Item} {Δ Δ' : List Item} (rest : Covers Δ Δ') : Covers (p :: Δ) (p :: Δ')
  | weaken {child : Child} {g g' : Grade} {Δ Δ' : List Item}
      (sure : g'.sure = true → g.sure = true) (full : g'.full = true → g.full = true)
      (rest : Covers Δ Δ') : Covers (piece child g :: Δ) (piece child g' :: Δ')
  | unmoved {start : Nat} {moved moved' : Bool} {Δ Δ' : List Item}
      (less : moved' = true → moved = true) (rest : Covers Δ Δ') :
      Covers (mark start moved :: Δ) (mark start moved' :: Δ')
  | drop {p : Item} {Δ Δ' : List Item} (rest : Covers Δ Δ') : Covers (p :: Δ) Δ'
  | missing {g : Grade} {Δ Δ' : List Item} (possible : g.sure = false) (rest : Covers Δ Δ') :
      Covers Δ (piece none g :: Δ')
  | lost {g : Grade} {Δ Δ' : List Item} (rest : Covers Δ Δ') :
      Covers (note false :: Δ) (piece none g :: Δ')

namespace Covers

variable {Δ Δ' : List Item} {text : List Char} {s : ParserState}

theorem refl : (Δ : List Item) → Covers Δ Δ
  | [] => .nil
  | _ :: rest => .keep (refl rest)

theorem nothing : (Δ : List Item) → Covers Δ []
  | [] => .nil
  | _ :: rest => .drop (nothing rest)

theorem append_left (Γ : List Item) (h : Covers Δ Δ') : Covers (Γ ++ Δ) (Γ ++ Δ') := by
  induction Γ with
  | nil => exact h
  | cons p Γ ih => exact .keep ih

theorem append_right (Γ : List Item) (h : Covers Δ Δ') : Covers (Δ ++ Γ) (Δ' ++ Γ) := by
  induction h with
  | nil => exact refl Γ
  | keep rest ih => exact .keep ih
  | weaken sure full rest ih => exact .weaken sure full ih
  | unmoved less rest ih => exact .unmoved less ih
  | drop rest ih => exact .drop ih
  | missing possible rest ih => exact .missing possible ih
  | lost rest ih => exact .lost ih

theorem loose {child : Child} {g : Grade} (rest : Covers Δ Δ') :
    Covers (piece child g :: Δ) (piece child .loose :: Δ') :=
  .weaken (fun no => Bool.noConfusion no) (fun no => Bool.noConfusion no) rest

theorem there {child : Child} (rest : Covers Δ Δ') :
    Covers (piece child .firm :: Δ) (piece child .there :: Δ') :=
  .weaken (fun yes => yes) (fun no => Bool.noConfusion no) rest

theorem of_pass (Δ : List Item) : Covers (Δ.map pass) Δ := by
  induction Δ with
  | nil => exact .nil
  | cons p Δ ih =>
    cases p with
    | mark start moved => exact .unmoved (fun _ => rfl) ih
    | piece child grade => exact .keep ih
    | token start stop => exact .keep ih
    | note holds => exact .keep ih

theorem init (Γ Δ : List Item) : Covers (Γ ++ Δ) Γ := by
  have dropped := (nothing Δ).append_left Γ
  rwa [List.append_nil] at dropped

theorem tail (Γ : List Item) {Δ Δ' : List Item} (h : Covers Δ Δ') : Covers (Γ ++ Δ) Δ' := by
  induction Γ with
  | nil => exact h
  | cons p Γ ih => exact .drop ih

theorem sublist (h : Covers Δ Δ') (t : Tree) :
    (Δ'.filterMap (span? t)).Sublist (Δ.filterMap (span? t)) := by
  have cons {p q : Item} (same : p.span? t = q.span? t) {Δ Δ' : List Item}
      (ih : (Δ'.filterMap (span? t)).Sublist (Δ.filterMap (span? t))) :
      ((q :: Δ').filterMap (span? t)).Sublist ((p :: Δ).filterMap (span? t)) := by
    rw [List.filterMap_cons, List.filterMap_cons, same]
    cases q.span? t with
    | none => exact ih
    | some a => exact ih.cons_cons a
  induction h with
  | nil => exact .slnil
  | keep rest ih => exact cons rfl ih
  | weaken sure full rest ih => exact cons rfl ih
  | unmoved less rest ih => exact cons rfl ih
  | @drop p Δ Δ' rest ih =>
    rw [List.filterMap_cons]
    cases p.span? t with
    | none => exact ih
    | some a => exact ih.cons a
  | missing possible rest ih => exact ih
  | lost rest ih => exact ih

theorem holds (h : Covers Δ Δ') (hold : ∀ p ∈ Δ, p.Holds text s) : ∀ q ∈ Δ', q.Holds text s := by
  induction h with
  | nil => exact hold
  | keep rest ih =>
    rw [List.forall_mem_cons] at hold ⊢
    exact ⟨hold.1, ih hold.2⟩
  | weaken sure full rest ih =>
    rw [List.forall_mem_cons] at hold ⊢
    obtain ⟨⟨node, known⟩, others⟩ := hold
    refine ⟨⟨fun i hi => ?_, fun wanted clean => known (sure wanted) clean⟩, ih others⟩
    obtain ⟨n, hn, stop, less⟩ := node i hi
    exact ⟨n, hn, stop, fun wanted clean => less (full wanted) clean⟩
  | unmoved less rest ih =>
    rw [List.forall_mem_cons] at hold ⊢
    obtain ⟨⟨boundary, before, after⟩, others⟩ := hold
    exact ⟨⟨boundary, before, fun moved clean => after (less moved) clean⟩, ih others⟩
  | drop rest ih =>
    rw [List.forall_mem_cons] at hold
    exact ih hold.2
  | missing possible rest ih =>
    rw [List.forall_mem_cons]
    exact ⟨⟨by simp, by simp [possible]⟩, ih hold⟩
  | lost rest ih =>
    rw [List.forall_mem_cons] at hold ⊢
    obtain ⟨wrong, others⟩ := hold
    exact ⟨⟨by simp, fun _ clean => Bool.noConfusion (wrong clean)⟩, ih others⟩

theorem stands (h : Covers Δ Δ') {b : Option Nat} {d : Nat} {Γ : List Item}
    (hs : Stands text b d (Γ ++ Δ) s) : Stands text b d (Γ ++ Δ') s :=
  hs.replace ((h.append_left Γ).holds hs.holds) ((h.append_left Γ).sublist s.tree)

theorem snoc (grade : Grade) (children : List Child) (child : Child) :
    Covers (several grade children.reverse ++ single grade child)
      (several grade (child :: children).reverse) := by
  have same : several grade (child :: children).reverse =
      several grade children.reverse ++ single grade child := by
    simp [several, single]
  exact same ▸ .refl _

end Covers

end Item

/-! ### Parsers -/

/-- The text that is parsed, and how many phrases may be opened inside each other. -/
structure Setting where
  text : List Char
  fuel : Nat

/-- Whether a budget is within the fuel, with a phrase to spare for one who is ready. -/
def Setting.Affords (x : Setting) (ready : Bool) (budget : Option Nat) : Prop :=
  ∀ m, budget = some m → m + ready.toNat ≤ x.fuel

theorem Setting.affords_none {x : Setting} {ready : Bool} : x.Affords ready none := by
  intro m hm
  cases hm

theorem Setting.Affords.unready {x : Setting} {ready : Bool} {b : Option Nat}
    (h : x.Affords true b) : x.Affords ready b := by
  intro m hm
  have := h m hm
  have := ready.toNat_le
  simp only [Bool.toNat_true] at *
  omega

namespace Parser

open Item

variable {α β σ : Type}

/-- From the items `P`, at a token that satisfies `at_`, a parser lays the items `Q`. -/
def LaysAt (x : Setting) (ready : Bool) (at_ : Lexer → Prop) (P : List Item) (act : Parser α)
    (Q : α → List Item) : Prop :=
  ∀ b d Γ s, x.Affords ready b → at_ s.lexer → Stands x.text b d (Γ ++ P) s →
    Stands x.text b d (Γ ++ Q (act s).1) (act s).2

abbrev Lays (x : Setting) (ready : Bool) (P : List Item) (act : Parser α) (Q : α → List Item) :
    Prop := LaysAt x ready (fun _ => True) P act Q

/-- A parser that goes on in the text at most, and adds nothing to the tree. -/
def Steady (text : List Char) (act : Parser α) : Prop :=
  ∀ s : ParserState, s.Footing text → s.Onward text (act s).2

theorem Looks.steady {text : List Char} {act : Parser α} (h : Looks act) : Steady text act := by
  intro s footing
  rw [h s]
  exact .refl footing

theorem Steady.closed {text : List Char} : Closed fun act => Steady text act where
  pure := fun a => (Looks.closed.pure a).steady
  bind := by
    intro α β act next h k s footing
    have first := h s footing
    exact first.trans (k (act s).1 (act s).2 first.footing)

namespace LaysAt

variable {x : Setting} {ready : Bool} {at_ : Lexer → Prop} {P : List Item} {act : Parser α}
  {next : α → Parser β} {Q : α → List Item} {R : β → List Item}

theorem any (h : Lays x ready P act Q) : LaysAt x ready at_ P act Q :=
  fun b d Γ s affords _ stands => h b d Γ s affords trivial stands

theorem at' {at' : Lexer → Prop} (h : LaysAt x ready at_ P act Q)
    (imp : ∀ l, at' l → at_ l) : LaysAt x ready at' P act Q :=
  fun b d Γ s affords token stands => h b d Γ s affords (imp _ token) stands

theorem spare (h : LaysAt x ready at_ P act Q) : LaysAt x true at_ P act Q :=
  fun b d Γ s affords token stands => h b d Γ s affords.unready token stands

theorem imp {Q' : α → List Item} (h : LaysAt x ready at_ P act Q)
    (covers : ∀ a, Covers (Q a) (Q' a)) : LaysAt x ready at_ P act Q' :=
  fun b d Γ s affords token stands => (covers _).stands (h b d Γ s affords token stands)

theorem given {P' : List Item} (h : LaysAt x ready at_ P act Q) (covers : Covers P' P) :
    LaysAt x ready at_ P' act Q :=
  fun b d Γ s affords token stands => h b d Γ s affords token (covers.stands stands)

theorem pure {a : α} (covers : Covers P (Q a)) : LaysAt x ready at_ P (Pure.pure a) Q :=
  fun _ _ _ _ _ _ stands => covers.stands stands

theorem frame (Θ : List Item) (h : LaysAt x ready at_ P act Q) :
    LaysAt x ready at_ (Θ ++ P) act fun a => Θ ++ Q a := by
  intro b d Γ s affords token stands
  rw [← List.append_assoc] at stands ⊢
  exact h b d (Γ ++ Θ) s affords token stands

theorem bind (h : LaysAt x ready at_ P act Q) (k : ∀ a, Lays x ready (Q a) (next a) R) :
    LaysAt x ready at_ P (act >>= next) R :=
  fun b d Γ s affords token stands =>
    k _ b d Γ _ affords trivial (h b d Γ s affords token stands)

theorem upon (Θ : List Item) (h : LaysAt x ready at_ P act Q)
    (k : ∀ a, Lays x ready (Θ ++ Q a) (next a) R) : LaysAt x ready at_ (Θ ++ P) (act >>= next) R :=
  (h.frame Θ).bind k

theorem call (h : LaysAt x ready at_ [] act Q) (k : ∀ a, Lays x ready (P ++ Q a) (next a) R) :
    LaysAt x ready at_ P (act >>= next) R := by
  have framed := h.frame P
  rw [List.append_nil] at framed
  exact framed.bind k

theorem steady (h : Steady x.text act) (k : ∀ a, Lays x ready P (next a) R) :
    LaysAt x ready at_ P (act >>= next) R :=
  fun b d Γ s affords _ stands =>
    k _ b d Γ _ affords trivial (stands.onward (h s stands.footing))

theorem look (h : Looks act) (k : ∀ a, LaysAt x ready at_ P (next a) R) :
    LaysAt x ready at_ P (act >>= next) R := by
  intro b d Γ s affords token stands
  change Stands x.text b d (Γ ++ R (next (act s).1 (act s).2).1) (next (act s).1 (act s).2).2
  rw [h s]
  exact k _ b d Γ s affords token stands

theorem without {g : Grade} {join : Child → Parser β} (possible : g.sure = false)
    (k : ∀ a, Lays x ready (P ++ single g a) (join a) R) :
    LaysAt x ready at_ P (Pure.pure none >>= join) R :=
  .call (.pure (.missing possible .nil)) k

theorem optional {c : Prop} [Decidable c] {act : Parser Child} {g : Grade} (possible : g.sure = false)
    (h : c → LaysAt x ready at_ [] act (single g)) :
    LaysAt x ready at_ [] (if c then act else Pure.pure none) (single g) :=
  decided h fun _ => .pure (.missing possible .nil)

theorem pureNone {Q : Child → List Item} {child : Child} (none_ : child.isNone = true)
    (covers : Covers P (Q child)) : LaysAt x ready at_ P (Pure.pure none) Q :=
  .pure (Option.isNone_iff_eq_none.1 none_ ▸ covers)

end LaysAt

end Parser

end PathGuard
