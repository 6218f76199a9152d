import PathGuard.Proofs.Span.Laying
/-!
# Laws of going on in the text

What the operations on the state leave in place. A token that is passed gives a parser a phrase to
spare, and so does a problem, behind which nothing is asked for any more.
-/

namespace PathGuard

namespace Parser

open Item ParserState

variable {α β σ : Type} {text : List Char} {s : ParserState}

/-! ### Noting problems -/

def Stays (text : List Char) (act : Parser α) : Prop :=
  ∀ s : ParserState, s.Footing text → s.Onward text (act s).2 ∧
    (act s).2.lexer = s.lexer ∧ (act s).2.previousEnd = s.previousEnd

theorem Looks.stays {act : Parser α} (h : Looks act) : Stays text act := by
  intro s footing
  rw [h s]
  exact ⟨.refl footing, rfl, rfl⟩

theorem Stays.closed : Closed fun act => Stays text act where
  pure := fun a => (Looks.closed.pure a).stays
  bind := by
    intro α β act next h k s footing
    obtain ⟨first, lexer, previous⟩ := h s footing
    obtain ⟨second, lexer', previous'⟩ := k (act s).1 (act s).2 first.footing
    exact ⟨first.trans second, lexer'.trans lexer, previous'.trans previous⟩

theorem Stays.steady {act : Parser α} (h : Stays text act) : Steady text act :=
  fun s footing => (h s footing).1

theorem report_wrong (start length : Nat) (cause : SyntaxError) (footing : s.Footing text) :
    (report start length cause s).2.problems ≠ [] := by
  change (if s.lastProblem = some start then s else _ : ParserState).problems ≠ []
  split
  · next again => exact footing.noted (by rw [again]; exact Option.some_ne_none _)
  · exact List.cons_ne_nil _ _

theorem stays_report (start length : Nat) (cause : SyntaxError) :
    Stays text (report start length cause) := by
  intro s footing
  have noted : Footing text { s with
      lastProblem := some start, problems := ⟨start, length, cause⟩ :: s.problems } :=
    ⟨footing.sits, footing.boundary, footing.behind, fun _ => List.cons_ne_nil _ _⟩
  change s.Onward text (if s.lastProblem = some start then s else _) ∧
    (if s.lastProblem = some start then s else _ : ParserState).lexer = s.lexer ∧
    (if s.lastProblem = some start then s else _ : ParserState).previousEnd = s.previousEnd
  split
  · exact ⟨.refl footing, rfl, rfl⟩
  · refine ⟨⟨noted, rfl, rfl, fun clean => ?_, Nat.le_refl _, Nat.le_refl _, Nat.le_refl _⟩, rfl, rfl⟩
    exact absurd clean (List.cons_ne_nil _ _)

theorem stays_reportHere (cause : SyntaxError) : Stays text (reportHere cause) :=
  Stays.closed.bind looks_tokenStart.stays fun _ => Stays.closed.bind looks_tokenEnd.stays fun _ =>
    stays_report _ _ _

theorem reportHere_wrong (cause : SyntaxError) (footing : s.Footing text) :
    (reportHere cause s).2.problems ≠ [] := report_wrong _ _ _ footing

/-! ### Moving on -/

/-- The state behind the current token. -/
def behindToken (s : ParserState) : ParserState :=
  { s with previousEnd := s.lexer.here.offset, lexer := s.lexer.scan }

theorem onward_behindToken (footing : s.Footing text) : s.Onward text (behindToken s) := by
  obtain ⟨sits, behind⟩ := footing.sits.scan
  have whole := footing.sits.here.trans behind
  exact {
    footing := {
      sits := sits
      boundary := (footing.sits.first.trans footing.sits.here).boundary
      behind := behind.offset_le
      noted := footing.noted }
    tree := rfl
    depth := rfl
    clean := id
    previous := Nat.le_trans footing.behind footing.sits.here.offset_le
    first := whole.offset_le
    left := whole.length_le }

theorem Stays.behind {change : ParserState → ParserState} {next : Unit → Parser α}
    (h : Stays text (next ())) (footing : (change s).Footing text) :
    (change s).Onward text ((modify change >>= next : Parser α) s).2 ∧
      ((modify change >>= next : Parser α) s).2.lexer = (change s).lexer ∧
      ((modify change >>= next : Parser α) s).2.previousEnd = (change s).previousEnd :=
  h (change s) footing

theorem stays_recordReading : Stays text recordReading := by
  intro s footing
  refine ⟨?_, rfl, rfl⟩
  exact {
    footing := ⟨footing.sits, footing.boundary, footing.behind, footing.noted⟩
    tree := rfl
    depth := rfl
    clean := id
    previous := Nat.le_refl _
    first := Nat.le_refl _
    left := Nat.le_refl _ }

theorem advance_onward (footing : (behindToken s).Footing text) :
    (behindToken s).Onward text (advance s).2 ∧
      (advance s).2.lexer = s.lexer.scan ∧ (advance s).2.previousEnd = s.lexer.here.offset := by
  unfold advance
  refine Stays.behind (Stays.closed.bind stays_recordReading fun _ => ?_) footing
  refine Stays.closed.bind looks_tokenStart.stays fun start => ?_
  refine Stays.closed.bind looks_tokenEnd.stays fun stop => ?_
  refine Stays.closed.bind looks_kind.stays fun k => ?_
  refine Stays.closed.bind looks_unterminated.stays fun open_ => ?_
  cases tokenProblem? k open_ with
  | none => exact Stays.closed.pure ()
  | some cause => exact stays_report _ _ _

theorem moves_advance (footing : s.Footing text) : s.Onward text (advance s).2 ∧
    (advance s).2.lexer = s.lexer.scan ∧ (advance s).2.previousEnd = s.lexer.here.offset := by
  have moved := onward_behindToken footing
  obtain ⟨onward, known⟩ := advance_onward moved.footing
  exact ⟨moved.trans onward, known⟩

theorem Steady.moving : Moving fun act => Steady text act where
  toClosed := Steady.closed
  kind := looks_kind.steady
  tokenStart := looks_tokenStart.steady
  tokenEnd := looks_tokenEnd.steady
  afterLineBreak := looks_afterLineBreak.steady
  unterminated := looks_unterminated.steady
  report := fun start length cause => (stays_report start length cause).steady
  recordReading := stays_recordReading.steady
  pass := fun _ => onward_behindToken

end Parser

namespace Stands

open Item

variable {text : List Char} {b : Option Nat} {d : Nat} {Γ P : List Item} {s s' : ParserState}

theorem pass (h : Stands text b d (Γ ++ P) s) (o : s.Onward text s')
    (behind : s'.problems = [] → s.lexer.first.offset < s'.previousEnd) :
    Stands text b d (Γ ++ P.map Item.pass) s' := by
  have later := h.onward o
  have spans : (P.map Item.pass).filterMap (Item.span? s'.tree) = P.filterMap (Item.span? s'.tree) := by
    rw [List.filterMap_map]
    refine List.filterMap_congr fun p _ => ?_
    cases p <;> rfl
  refine later.replace (fun p hp => ?_) ?_
  · rcases List.mem_append.1 hp with old | new
    · exact later.holds p (List.mem_append_left _ old)
    · obtain ⟨q, hq, rfl⟩ := List.mem_map.1 new
      have holds := later.holds q (List.mem_append_right _ hq)
      cases q with
      | mark start moved =>
        obtain ⟨-, before, -⟩ := h.holds _ (List.mem_append_right _ hq)
        exact ⟨holds.1, holds.2.1, fun _ clean => Nat.lt_of_le_of_lt before (behind clean)⟩
      | piece child grade => exact holds
      | token start stop => exact holds
      | note known => exact holds
  · rw [List.filterMap_append, List.filterMap_append, spans]

/-- The place where the current token begins lies behind all that is held. -/
theorem push_mark {items : List Item} (h : Stands text b d items s) :
    Stands text b d (items ++ [.mark s.lexer.first.offset false]) s := by
  refine h.push ⟨h.footing.sits.first.boundary, Nat.le_refl _, Bool.noConfusion⟩ fun a span => ?_
  obtain rfl := Option.some.inj span
  exact Nat.le_refl _

theorem settle {start : Nat} {moved : Bool} {Δ : List Item} {q : Item}
    (h : Stands text b d (Γ ++ .mark start moved :: Δ) s) (holds : q.Holds text s)
    (begins : ∀ a, q.span? s.tree = some a → a.1 = start) :
    Stands text b d (Γ ++ [.mark start moved, q]) s :=
  { h with
    holds := by
      intro p hp
      rcases List.mem_append.1 hp with old | new
      · exact h.holds p (List.mem_append_left _ old)
      · rcases List.mem_cons.1 new with rfl | last
        · exact h.holds _ (List.mem_append_right _ (List.mem_cons_self ..))
        · exact List.mem_singleton.1 last ▸ holds
    lined := by
      have lined := h.lined
      unfold Lined at lined ⊢
      have marked (Δ : List Item) : (Item.mark start moved :: Δ).filterMap (Item.span? s.tree) =
          (start, start) :: Δ.filterMap (Item.span? s.tree) := rfl
      rw [List.filterMap_append, marked, List.pairwise_append] at lined ⊢
      obtain ⟨before, -, apart⟩ := lined
      have least (a : Nat × Nat) (ha : a ∈ Γ.filterMap (Item.span? s.tree)) : a.2 ≤ start :=
        apart a ha (start, start) (List.mem_cons_self ..)
      cases span : q.span? s.tree with
      | none =>
        refine ⟨before, by simp [span], fun a ha c hc => ?_⟩
        have there : c = (start, start) := by simpa [span] using hc
        exact there ▸ least a ha
      | some e =>
        have first := begins e span
        refine ⟨before, by simp [span, first], fun a ha c hc => ?_⟩
        have there : c = (start, start) ∨ c = e := by simpa [span] using hc
        rcases there with rfl | rfl
        · exact least a ha
        · exact first ▸ least a ha }

theorem push_note {items : List Item} (h : Stands text b d items s) (holds : Bool)
    (known : s.problems = [] → holds = true) : Stands text b d (items ++ [.note holds]) s := by
  refine h.push known fun a span => ?_
  cases span

end Stands

/-- Where a measure has gone down, a parser without a phrase to spare has one. -/
theorem Setting.Affords.spend {x : Setting} {ready : Bool} {b : Option Nat} {clean : Prop} {n : Nat}
    (h : x.Affords ready b) (room : clean → ∃ m, b = some m ∧ n + 1 ≤ m) :
    ∃ b', x.Affords true b' ∧ (clean → ∃ m, b' = some m ∧ n ≤ m) ∧
      ∀ k, (∃ m, b' = some m ∧ k ≤ m) → ∃ m, b = some m ∧ k + 1 ≤ m := by
  by_cases known : clean
  · obtain ⟨m, rfl, enough⟩ := room known
    have afford := h m rfl
    refine ⟨some (m - 1), fun m' hm => ?_, fun _ => ⟨m - 1, rfl, by omega⟩, fun k found => ?_⟩
    · obtain rfl := Option.some.inj hm
      rw [Bool.toNat_true]
      omega
    · obtain ⟨m', hm, le⟩ := found
      obtain rfl := Option.some.inj hm
      exact ⟨m, rfl, by omega⟩
  · refine ⟨none, fun m hm => ?_, fun yes => absurd yes known, fun k found => ?_⟩
    · cases hm
    · obtain ⟨m, hm, -⟩ := found
      cases hm

theorem Stands.redepth {text : List Char} {b b' : Option Nat} {d d' : Nat} {items : List Item}
    {s : ParserState} (h : Stands text b d items s) (deep : d' ≤ maxDepth)
    (room : s.problems = [] →
      ∃ m, b' = some m ∧ s.lexer.first.rest.length + (maxDepth - d') ≤ m) (deepest : Nat) :
    Stands text b' d' items { s with depth := d', deepest := deepest } where
  footing := ⟨h.footing.sits, h.footing.boundary, h.footing.behind, h.footing.noted⟩
  room := room
  atDepth := rfl
  deep := deep
  pools := h.pools
  placed := h.placed
  holds := h.holds
  lined := h.lined

theorem Stands.spare {x : Setting} {ready : Bool} {b : Option Nat} {d : Nat}
    {items items' : List Item} {s s' : ParserState} (later : Stands x.text b d items' s')
    (affords : x.Affords ready b) (h : Stands x.text b d items s)
    (clean : s'.problems = [] → s.problems = [])
    (shorter : s'.lexer.first.rest.length < s.lexer.first.rest.length) :
    ∃ b', x.Affords true b' ∧ Stands x.text b' d items' s' ∧
      ∀ items'' s'', Stands x.text b' d items'' s'' → Stands x.text b d items'' s'' := by
  have room (calm : s'.problems = []) :
      ∃ m, b = some m ∧ s'.lexer.first.rest.length + (maxDepth - d) + 1 ≤ m := by
    obtain ⟨m, hm, enough⟩ := h.room (clean calm)
    exact ⟨m, hm, by omega⟩
  obtain ⟨b', affords', room', back⟩ := affords.spend room
  refine ⟨b', affords', { later with room := room' }, fun items'' s'' h'' =>
    { h'' with room := fun calm => ?_ }⟩
  obtain ⟨m, hm, enough⟩ := back _ (h''.room calm)
  exact ⟨m, hm, by omega⟩

theorem Parser.shorter_behind {text : List Char} {s : ParserState} {l : Lexer}
    (footing : s.Footing text) (notEnd : s.lexer.kind ≠ .endOfFile) (behind : l = s.lexer.scan) :
    l.first.rest.length < s.lexer.first.rest.length := by
  have sits := footing.sits
  rw [behind]
  exact Nat.lt_of_le_of_lt sits.scan.2.length_le (sits.more notEnd).length_lt

namespace Parser

open Item ParserState

variable {α β σ : Type} {x : Setting} {ready : Bool} {at_ : Lexer → Prop} {P : List Item}
  {act : Parser α} {R : β → List Item}

namespace LaysAt

/-! ### The current token -/

theorem kind {next : TokenKind → Parser β}
    (k : ∀ found, (∃ l, at_ l ∧ l.kind = found) →
      LaysAt x ready (fun l => at_ l ∧ l.kind = found) P (next found) R) :
    LaysAt x ready at_ P (Parser.kind >>= next) R :=
  fun b d Γ s affords token stands =>
    k s.lexer.kind ⟨_, token, rfl⟩ b d Γ s affords ⟨token, rfl⟩ stands

theorem ask {act : Parser Bool} {next : Bool → Parser β} {told : Lexer → Prop} (looks : Looks act)
    (tells : ∀ s, (act s).1 = true → told s.lexer)
    (yes : LaysAt x ready (fun l => at_ l ∧ told l) P (next true) R)
    (no : LaysAt x ready at_ P (next false) R) : LaysAt x ready at_ P (act >>= next) R := by
  intro b d Γ s affords token stands
  change Stands x.text b d (Γ ++ R (next (act s).1 (act s).2).1) (next (act s).1 (act s).2).2
  rw [looks s]
  cases answer : (act s).1 with
  | true => exact yes b d Γ s affords ⟨token, tells s answer⟩ stands
  | false => exact no b d Γ s affords token stands

theorem isAt {wanted : TokenKind} {next : Bool → Parser β}
    (yes : LaysAt x ready (fun l => at_ l ∧ l.kind = wanted) P (next true) R)
    (no : LaysAt x ready (fun l => at_ l ∧ l.kind ≠ wanted) P (next false) R) :
    LaysAt x ready at_ P (Parser.isAt wanted >>= next) R := by
  intro b d Γ s affords token stands
  change Stands x.text b d (Γ ++ R (next (s.lexer.kind == wanted) s).1)
    (next (s.lexer.kind == wanted) s).2
  by_cases found : s.lexer.kind = wanted
  · rw [found, beq_self_eq_true]
    exact yes b d Γ s affords ⟨token, found⟩ stands
  · rw [beq_eq_false_iff_ne.2 found]
    exact no b d Γ s affords ⟨token, found⟩ stands

theorem start {next : Nat → Parser β}
    (k : ∀ start, LaysAt x ready (fun l => at_ l ∧ l.first.offset = start) P (next start) R) :
    LaysAt x ready at_ P (tokenStart >>= next) R :=
  fun b d Γ s affords token stands =>
    k s.lexer.first.offset b d Γ s affords ⟨token, rfl⟩ stands

theorem stop {next : Nat → Parser β}
    (k : ∀ stop, LaysAt x ready (fun l => at_ l ∧ l.here.offset = stop) P (next stop) R) :
    LaysAt x ready at_ P (tokenEnd >>= next) R :=
  fun b d Γ s affords token stands =>
    k s.lexer.here.offset b d Γ s affords ⟨token, rfl⟩ stands

theorem mark {next : Nat → Parser β}
    (k : ∀ start, LaysAt x ready (fun l => at_ l ∧ l.first.offset = start)
      (P ++ [.mark start false]) (next start) R) :
    LaysAt x ready at_ P (tokenStart >>= next) R := by
  intro b d Γ s affords token stands
  have held := stands.push_mark
  rw [List.append_assoc] at held
  exact k s.lexer.first.offset b d Γ s affords ⟨token, rfl⟩ held

theorem markCursor {next : Cursor → Parser β}
    (k : ∀ c, LaysAt x ready at_ (P ++ [.mark c.offset false]) (next c) R) :
    LaysAt x ready at_ P (tokenCursor >>= next) R := by
  intro b d Γ s affords token stands
  have held := stands.push_mark
  rw [List.append_assoc] at held
  exact k s.lexer.first b d Γ s affords token held

theorem notice {Q : α → List Item} (known : Bool)
    (follows : ∀ s : ParserState, (∀ p ∈ P, p.Holds x.text s) → at_ s.lexer → s.problems = [] →
      known = true)
    (k : LaysAt x ready at_ (P ++ [.note known]) act Q) : LaysAt x ready at_ P act Q := by
  intro b d Γ s affords token stands
  have held (p : Item) (hp : p ∈ P) := stands.holds p (List.mem_append_right _ hp)
  have noted := stands.push_note known (follows s held token)
  rw [List.append_assoc] at noted
  exact k b d Γ s affords token noted

theorem ofKind {Q : α → List Item}
    (h : ∀ k, LaysAt x ready (fun l => at_ l ∧ l.kind = k) P act Q) : LaysAt x ready at_ P act Q :=
  fun b d Γ s affords here stands => h _ b d Γ s affords ⟨here, rfl⟩ stands

theorem bindAt {next : α → Parser β} {Q : α → List Item} (h : LaysAt x ready at_ P act Q)
    (same : ∀ s, (act s).2.lexer = s.lexer)
    (k : ∀ s, LaysAt x ready at_ (Q (act s).1) (next (act s).1) R) :
    LaysAt x ready at_ P (act >>= next) R := by
  intro b d Γ s affords here stands
  have here' : at_ (act s).2.lexer := by rwa [same]
  exact k s b d Γ _ affords here' (h b d Γ s affords here stands)

theorem sitting {Q : α → List Item}
    (h : LaysAt x ready (fun l => at_ l ∧ l.Sits x.text) P act Q) : LaysAt x ready at_ P act Q :=
  fun b d Γ s affords here stands => h b d Γ s affords ⟨here, stands.footing.sits⟩ stands

theorem report {cause : SyntaxError} {next : Unit → Parser β}
    (k : LaysAt x ready at_ (P ++ [.note false]) (next ()) R) :
    LaysAt x ready at_ P (reportHere cause >>= next) R := by
  intro b d Γ s affords token stands
  obtain ⟨onward, lexer, -⟩ := stays_reportHere cause s stands.footing
  have wrong := reportHere_wrong cause stands.footing
  have noted := (stands.onward onward).push_note false fun clean => absurd clean wrong
  rw [List.append_assoc] at noted
  have here : at_ (reportHere cause s).2.lexer := by rwa [lexer]
  exact k b d Γ _ affords here noted

theorem reportWhen {c : Prop} [Decidable c] {cause : SyntaxError} {join : Unit → Parser β}
    (k : Lays x ready (P ++ [.note !decide c]) (join ()) R) :
    LaysAt x ready at_ P (if c then reportHere cause >>= join else join ()) R := by
  refine decided (fun holds => .report ?_) fun fails => ?_
  · rw [decide_eq_true holds] at k
    exact k.any
  · intro b d Γ s affords token stands
    have noted := stands.push_note (!decide c) fun _ => by simp [fails]
    rw [List.append_assoc] at noted
    exact k b d Γ s affords trivial noted

/-! ### Passing tokens -/

theorem advanceWith {P' : List Item} {next : Unit → Parser β}
    (notEnd : ∀ l, at_ l → l.kind ≠ .endOfFile)
    (step : ∀ b d Γ s s', at_ s.lexer → Stands x.text b d (Γ ++ P) s → s.Onward x.text s' →
      s'.previousEnd = s.lexer.here.offset → s.lexer.first.offset < s'.previousEnd →
      Stands x.text b d (Γ ++ P') s')
    (k : LaysAt x true (fun l => ∃ l', at_ l' ∧ l = l'.scan) P' (next ()) R) :
    LaysAt x ready at_ P (Parser.advance >>= next) R := by
  intro b d Γ s affords token stands
  obtain ⟨onward, lexer, previous⟩ := moves_advance stands.footing
  have sits := stands.footing.sits
  have more := sits.more (notEnd _ token)
  have later := step b d Γ s _ token stands onward previous (by rw [previous]; exact more.offset_lt)
  obtain ⟨b', affords', later, back⟩ := later.spare affords stands onward.clean
    (shorter_behind stands.footing (notEnd _ token) lexer)
  exact back _ _ (k b' d Γ _ affords' ⟨_, token, lexer⟩ later)

theorem advanceFrom {next : Unit → Parser β} (notEnd : ∀ l, at_ l → l.kind ≠ .endOfFile)
    (k : LaysAt x true (fun l => ∃ l', at_ l' ∧ l = l'.scan) (P.map Item.pass) (next ()) R) :
    LaysAt x ready at_ P (Parser.advance >>= next) R :=
  advanceWith notEnd (fun _ _ _ _ _ _ stands onward _ behind => stands.pass onward fun _ => behind) k

theorem advance {next : Unit → Parser β} (notEnd : ∀ l, at_ l → l.kind ≠ .endOfFile)
    (k : Lays x true (P.map Item.pass) (next ()) R) :
    LaysAt x ready at_ P (Parser.advance >>= next) R := advanceFrom notEnd k.any

theorem advanceTokenFrom {next : Unit → Parser β} {start stop : Nat}
    (notEnd : ∀ l, at_ l → l.kind ≠ .endOfFile)
    (starts : ∀ l, at_ l → l.first.offset = start) (stops : ∀ l, at_ l → l.here.offset = stop)
    (k : LaysAt x true (fun l => ∃ l', at_ l' ∧ l = l'.scan)
      (P.map Item.pass ++ [.token start stop]) (next ()) R) :
    LaysAt x ready at_ P (Parser.advance >>= next) R := by
  refine advanceWith notEnd (fun b d Γ s s' here stands onward previous behind => ?_) k
  obtain rfl := starts _ here
  obtain rfl := stops _ here
  have sits := stands.footing.sits
  have marked := stands.push_mark
  rw [List.append_assoc] at marked
  have later := marked.pass onward fun _ => behind
  rw [List.map_append, ← List.append_assoc] at later
  have settled := later.settle (q := .token s.lexer.first.offset s.lexer.here.offset)
    ⟨sits.first.boundary, (sits.first.trans sits.here).boundary, previous ▸ behind,
      Nat.le_of_eq previous.symm⟩ fun a span => by
    obtain rfl := Option.some.inj span
    rfl
  rw [← List.append_assoc]
  exact (Covers.drop (.keep .nil)).stands settled

theorem advanceToken {next : Unit → Parser β} {start stop : Nat}
    (notEnd : ∀ l, at_ l → l.kind ≠ .endOfFile)
    (starts : ∀ l, at_ l → l.first.offset = start) (stops : ∀ l, at_ l → l.here.offset = stop)
    (k : Lays x true (P.map Item.pass ++ [.token start stop]) (next ()) R) :
    LaysAt x ready at_ P (Parser.advance >>= next) R := advanceTokenFrom notEnd starts stops k.any

theorem accept {k : TokenKind} {next : Bool → Parser β} (notEnd : k ≠ .endOfFile)
    (yes : Lays x true (P.map Item.pass) (next true) R)
    (no : LaysAt x ready (fun l => at_ l ∧ l.kind ≠ k) P (next false) R) :
    LaysAt x ready at_ P (Parser.accept k >>= next) R := by
  unfold Parser.accept
  rw [bind_assoc]
  refine .isAt ?_ ?_
  · rw [if_pos rfl, bind_assoc]
    exact .advance (fun l here ended => notEnd (here.2.symm.trans ended)) (atOnce yes)
  · rw [if_neg Bool.false_ne_true]
    exact atOnce no

theorem acceptMark {p : Punctuator} {next : Bool → Parser β}
    (yes : Lays x true (P.map Item.pass) (next true) R)
    (no : LaysAt x ready (fun l => at_ l ∧ l.kind ≠ .mark p) P (next false) R) :
    LaysAt x ready at_ P (Parser.acceptMark p >>= next) R := accept (by simp) yes no

theorem acceptWord {w : Keyword} {next : Bool → Parser β}
    (yes : Lays x true (P.map Item.pass) (next true) R)
    (no : LaysAt x ready (fun l => at_ l ∧ l.kind ≠ .word w) P (next false) R) :
    LaysAt x ready at_ P (Parser.acceptWord w >>= next) R := accept (by simp) yes no

theorem decline {k : TokenKind} {next : Bool → Parser β} (other : ∀ l, at_ l → l.kind ≠ k)
    (no : LaysAt x ready at_ P (next false) R) :
    LaysAt x ready at_ P (Parser.accept k >>= next) R := by
  unfold Parser.accept
  rw [bind_assoc]
  refine .isAt ?_ ?_
  · intro b d Γ s affords token stands
    exact absurd token.2 (other _ token.1)
  · rw [if_neg Bool.false_ne_true]
    exact atOnce (no.at' fun l here => here.1)

theorem expect {k : TokenKind} {next : Unit → Parser β} (notEnd : k ≠ .endOfFile)
    (then_ : Lays x true (P.map Item.pass) (next ()) R) :
    LaysAt x ready at_ P (Parser.expect k >>= next) R := by
  unfold Parser.expect
  rw [bind_assoc]
  refine .accept notEnd ?_ ?_
  · rw [if_pos rfl]
    exact atOnce then_
  · rw [if_neg Bool.false_ne_true]
    intro b d Γ s affords _ stands
    obtain ⟨onward, -⟩ := stays_reportHere (.tokenExpected k) s stands.footing
    have wrong := reportHere_wrong (.tokenExpected k) stands.footing
    have later := stands.pass onward fun clean => absurd clean wrong
    have ended := then_ none d Γ _ Setting.affords_none trivial (later.rebudget wrong)
    exact ended.rebudget fun clean => by
      obtain ⟨m, hm, -⟩ := ended.room clean
      cases hm

theorem expectMark {p : Punctuator} {next : Unit → Parser β}
    (then_ : Lays x true (P.map Item.pass) (next ()) R) :
    LaysAt x ready at_ P (Parser.expectMark p >>= next) R := expect (by simp) then_

theorem expectWord {w : Keyword} {next : Unit → Parser β}
    (then_ : Lays x true (P.map Item.pass) (next ()) R) :
    LaysAt x ready at_ P (Parser.expectWord w >>= next) R := expect (by simp) then_

theorem expectThere {k : TokenKind} {next : Unit → Parser β} (there : ∀ l, at_ l → l.kind = k)
    (notEnd : k ≠ .endOfFile)
    (then_ : LaysAt x true (fun l => ∃ l', at_ l' ∧ l = l'.scan) (P.map Item.pass) (next ()) R) :
    LaysAt x ready at_ P (Parser.expect k >>= next) R := by
  unfold Parser.expect Parser.accept
  rw [bind_assoc, bind_assoc]
  refine .isAt ?_ ?_
  · rw [if_pos rfl, bind_assoc]
    refine .advanceFrom (fun l here ended => notEnd (here.2.symm.trans ended)) (atOnce ?_)
    rw [if_pos rfl]
    exact atOnce (then_.at' fun l here => here.imp fun l' behind => ⟨behind.1.1, behind.2⟩)
  · intro b d Γ s affords token stands
    exact absurd (there _ token.1) token.2

/-- Where a token is missing that has to be there, a problem was noted. -/
theorem expectMissing {k : TokenKind} {next : Unit → Parser β} (other : ∀ l, at_ l → l.kind ≠ k)
    (then_ : Lays x ready (P ++ [.note false]) (next ()) R) :
    LaysAt x ready at_ P (Parser.expect k >>= next) R := by
  unfold Parser.expect
  rw [bind_assoc]
  refine .decline other ?_
  rw [if_neg Bool.false_ne_true]
  exact .report then_.any

theorem rescan (at' : Lexer → Prop) {change : Lexer → Lexer} {cause : SyntaxError}
    {next : Unit → Parser β}
    (sits : ∀ l, at_ l → l.Sits x.text → (change l).Sits x.text ∧ (change l).first = l.first)
    (now : ∀ l, at_ l → at' (change l)) (k : LaysAt x ready at' P (next ()) R) :
    LaysAt x ready at_ P (Parser.rescan change cause >>= next) R := by
  have noted : LaysAt x ready at' P
      (unterminated >>= fun open_ => (if open_ then reportHere cause else Pure.pure ()) >>= next) R := by
    refine .look looks_unterminated fun open_ => ?_
    cases open_ with
    | true => exact .report (k.given (.init _ _))
    | false => exact k
  intro b d Γ s affords token stands
  obtain ⟨footing, same⟩ := sits _ token stands.footing.sits
  refine noted b d Γ { s with lexer := change s.lexer, readings := change s.lexer :: s.readings }
    affords (now _ token) (stands.onward ?_)
  exact {
    footing := ⟨footing, stands.footing.boundary, by rw [same]; exact stands.footing.behind,
      stands.footing.noted⟩
    tree := rfl
    depth := rfl
    clean := id
    previous := Nat.le_refl _
    first := Nat.le_of_eq (by rw [same])
    left := Nat.le_of_eq (by rw [same]) }

/-! ### Context, depth and repetition -/

theorem onward_context {s : ParserState} (c : Context) (footing : s.Footing x.text) :
    s.Onward x.text { s with context := c } where
  footing := ⟨footing.sits, footing.boundary, footing.behind, footing.noted⟩
  tree := rfl
  depth := rfl
  clean := id
  previous := Nat.le_refl _
  first := Nat.le_refl _
  left := Nat.le_refl _

theorem within {Q : α → List Item} (change : Context → Context)
    (h : LaysAt x ready at_ P act Q) : LaysAt x ready at_ P (Parser.within change act) Q := by
  intro b d Γ s affords token stands
  have inside := h b d Γ { s with context := change s.context } affords token
    (stands.onward (onward_context _ stands.footing))
  exact inside.onward (onward_context s.context inside.footing)

/-- One level deeper there is a phrase to spare. At the greatest depth a problem is noted. -/
theorem nested {act : Parser Child} {Q : Child → List Item} (h : LaysAt x true at_ [] act Q)
    (lost : Covers [.note false] (Q none)) : LaysAt x ready at_ [] (Parser.nested act) Q := by
  intro b d Γ s affords token stands
  obtain rfl := stands.atDepth
  by_cases deepest : maxDepth ≤ s.depth
  · have halted : LaysAt x ready at_ [] (reportHere .nestingTooDeep >>= fun _ =>
        Parser.skipAsMissing) Q := by
      refine .report (.look (looks_isAt _) fun ended => ?_)
      cases ended with
      | true => exact .pure lost
      | false => exact .steady Steady.moving.advance fun _ => .pure lost
    rw [run_nested_deepest deepest]
    exact halted b s.depth Γ s affords token stands
  · rw [run_nested_deeper deepest]
    have room (clean : s.problems = []) :
        ∃ m, b = some m ∧ s.lexer.first.rest.length + (maxDepth - (s.depth + 1)) + 1 ≤ m := by
      obtain ⟨m, hm, enough⟩ := stands.room clean
      exact ⟨m, hm, by omega⟩
    obtain ⟨b', affords', room', back⟩ := affords.spend room
    have inner := h b' (s.depth + 1) Γ s.deeper affords' token (stands.redepth (by omega) room' _)
    rw [inner.atDepth]
    refine inner.redepth stands.deep (fun clean => ?_) _
    obtain ⟨m, hm, enough⟩ := back _ (inner.room clean)
    exact ⟨m, hm, by omega⟩

theorem repeating {I : σ → List Item} {step : σ → Parser (ForInStep σ)}
    (h : ∀ acc, Lays x ready (I acc) (step acc) fun answer => I answer.value) (acc : σ) :
    LaysAt x ready at_ (I acc) (Parser.repeating step acc) I := by
  have bounded (bound : List Char) (acc : σ) :
      Lays x ready (I acc) (repeatWithin step bound acc) I :=
    repeatWithin_induction (motive := fun acc act => Lays x ready (I acc) act I)
      (fun _ => pure (.refl _)) (fun acc _ later => (h acc).bind later) bound acc
  exact look looks_textLeft fun text => (bounded text acc).any

theorem rowFrom {start : Nat} {nodes : List Child} {trailingComma : Bool}
    {Q : NodeList → List Item}
    (covers : ∀ stop, Covers P (Q ⟨nodes, start, stop, trailingComma⟩)) :
    LaysAt x ready at_ P (Parser.rowFrom start nodes trailingComma) Q :=
  fun _ _ _ s _ _ stands => (covers s.previousEnd).stands stands

end LaysAt

end Parser

end PathGuard
