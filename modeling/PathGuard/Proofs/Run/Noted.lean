import PathGuard.Proofs.Run.Move
/-!
# What was noted on the way

What the moves of a parser keep. The problems lie behind each other, since each is noted at the
current token and no second one there; a token that misses its end is noted, unless it is a name or
the end behind an open comment; and the tree holds no deep chain and no second text.
-/

namespace PathGuard

namespace ParserState

open PathGuard.Parser

variable {text : List Char} {s s' : ParserState}

/-! ### Order -/

/-- Whether the problems that were noted, the last one first, begin and end at characters of the text,
one before the other and none behind the place where the current token begins. -/
structure Ordered (text : List Char) (s : ParserState) : Prop where
  sorted : s.problems.Pairwise fun later earlier => earlier.start < later.start
  last : s.lastProblem = s.problems.head?.map Problem.start
  before : ∀ p ∈ s.problems, p.start ≤ s.lexer.first.offset
  placed : ∀ p ∈ s.problems, IsBoundary text p.start ∧ IsBoundary text (p.start + p.length)

theorem Ordered.ahead (h : s.Ordered text) (problems : s'.problems = s.problems)
    (last : s'.lastProblem = s.lastProblem)
    (first : s.lexer.first.offset ≤ s'.lexer.first.offset) : s'.Ordered text where
  sorted := problems ▸ h.sorted
  last := by rw [problems, last, h.last]
  before := fun p hp => Nat.le_trans (h.before p (problems ▸ hp)) first
  placed := fun p hp => h.placed p (problems ▸ hp)

theorem Ordered.lt_first (h : s.Ordered text) (fresh : s.lastProblem ≠ some s.lexer.first.offset) :
    ∀ p ∈ s.problems, p.start < s.lexer.first.offset := by
  have sorted := h.sorted
  have before := h.before
  have last := h.last
  cases noted : s.problems with
  | nil => exact fun p hp => by cases hp
  | cons q rest =>
    rw [noted] at sorted before last
    have newest : q.start < s.lexer.first.offset := by
      refine Nat.lt_of_le_of_ne (before q (List.mem_cons_self ..)) fun same => fresh ?_
      rw [last, List.head?_cons, Option.map_some, same]
    intro p hp
    rcases List.mem_cons.1 hp with rfl | older
    · exact newest
    · exact Nat.lt_trans ((List.pairwise_cons.1 sorted).1 p older) newest

theorem Ordered.report (h : s.Ordered text) (begins : IsBoundary text s.lexer.first.offset)
    {length : Nat} (ends : IsBoundary text (s.lexer.first.offset + length)) (cause : SyntaxError) :
    (report s.lexer.first.offset length cause s).2.Ordered text := by
  change (if s.lastProblem = some s.lexer.first.offset then s else _ : ParserState).Ordered text
  split
  · exact h
  · next fresh =>
    exact {
      sorted := List.pairwise_cons.2 ⟨h.lt_first fresh, h.sorted⟩
      last := rfl
      before := by
        rintro p (_ | ⟨_, older⟩)
        · exact Nat.le_refl _
        · exact h.before p older
      placed := by
        rintro p (_ | ⟨_, older⟩)
        · exact ⟨begins, ends⟩
        · exact h.placed p older }

theorem Ordered.reportHere (h : s.Ordered text) (standing : s.Standing text) (cause : SyntaxError) :
    (reportHere cause s).2.Ordered text := by
  have sits := standing.footing.sits
  rw [run_reportHere]
  refine h.report sits.first.boundary ?_ cause
  rw [Nat.add_sub_cancel' sits.here.offset_le]
  exact (sits.first.trans sits.here).boundary

theorem Ordered.noteToken (h : s.Ordered text) (standing : s.Standing text) :
    (noteToken s).2.Ordered text := by
  have sits := standing.footing.sits
  rcases noteToken_cases standing.footing with ⟨-, same⟩ | ⟨length, cause, ends, noted⟩
  · rwa [same]
  · rw [noted]
    refine h.report sits.first.boundary ?_ cause
    rw [ends]
    exact (sits.first.trans sits.here).boundary

theorem Ordered.rescan (h : s.Ordered text) (standing : s.Standing text) {change : Lexer → Lexer}
    (cause : SyntaxError) (sits : (change s.lexer).Sits text)
    (first : (change s.lexer).first = s.lexer.first) : (rescan change cause s).2.Ordered text := by
  have later := standing.read sits first
  have kept : (s.read (change s.lexer)).Ordered text := h.ahead rfl rfl later.first
  rw [run_rescan]
  split
  · exact kept.reportHere later.standing cause
  · exact kept

theorem Ordered.move (standing : s.Standing text) (h : s.Ordered text) (m : Move s s') :
    s'.Ordered text := by
  cases m with
  | report cause => exact h.reportHere standing cause
  | advance =>
    have later := standing.readNext
    have kept : s.readNext.Ordered text := h.ahead rfl rfl later.first
    rw [run_advance]
    exact kept.noteToken later.standing
  | template brace => exact h.rescan standing _ (standing.footing.sits.rescanTemplate brace) rfl
  | slash mark =>
    exact h.rescan standing _ standing.footing.sits.rescanSlash (rescanSlash_first _)
  | context c => exact h.ahead rfl rfl (Nat.le_refl _)
  | depth d deepest => exact h.ahead rfl rfl (Nat.le_refl _)
  | token start stop ordinary => exact h.ahead rfl rfl (Nat.le_refl _)
  | node flags start stop inner admits => exact h.ahead rfl rfl (Nat.le_refl _)

/-! ### Tokens that miss their end -/

/-- Whether no token that misses its end was passed over: a literal was noted where it begins, and
anything else is the end of the text or a name. -/
def Attentive (s : ParserState) : Prop :=
  ∀ l ∈ s.readings, l.flags.unterminated = true →
    (∃ k, l.kind = .literal k) ∧ (∃ p ∈ s.problems, p.start = l.first.offset) ∨
      l.kind = .endOfFile ∨ l.kind.isName = true

theorem report_keeps (start length : Nat) (cause : SyntaxError) :
    ∀ p ∈ s.problems, p ∈ (report start length cause s).2.problems := by
  intro p hp
  change p ∈ (if s.lastProblem = some start then s else _ : ParserState).problems
  split
  · exact hp
  · exact List.mem_cons_of_mem _ hp

theorem report_readings (start length : Nat) (cause : SyntaxError) :
    (report start length cause s).2.readings = s.readings := by
  change (if s.lastProblem = some start then s else _ : ParserState).readings = s.readings
  split <;> rfl

/-- Where a problem is reported one is noted: this one, or the one that was noted there before. -/
theorem Ordered.report_at (h : s.Ordered text) (start length : Nat) (cause : SyntaxError) :
    ∃ p ∈ (Parser.report start length cause s).2.problems, p.start = start := by
  change ∃ p ∈ (if s.lastProblem = some start then s else _ : ParserState).problems, p.start = start
  split
  · next noted =>
    rw [h.last, Option.map_eq_some_iff] at noted
    obtain ⟨p, newest, there⟩ := noted
    exact ⟨p, List.mem_of_head? newest, there⟩
  · exact ⟨_, List.mem_cons_self .., rfl⟩

theorem Attentive.of_problems (h : s.Attentive) (readings : s'.readings = s.readings)
    (kept : ∀ p ∈ s.problems, p ∈ s'.problems) : s'.Attentive := by
  intro l hl missing
  rw [readings] at hl
  exact (h l hl missing).imp_left fun ⟨literal, p, hp, there⟩ => ⟨literal, p, kept p hp, there⟩

theorem Attentive.report (h : s.Attentive) (start length : Nat) (cause : SyntaxError) :
    (report start length cause s).2.Attentive :=
  h.of_problems (report_readings start length cause) (report_keeps start length cause)

theorem Attentive.cons (h : s.Attentive) {l : Lexer} (readings : s'.readings = l :: s.readings)
    (kept : ∀ p ∈ s.problems, p ∈ s'.problems)
    (new : l.flags.unterminated = true →
      (∃ k, l.kind = .literal k) ∧ (∃ p ∈ s'.problems, p.start = l.first.offset) ∨
        l.kind = .endOfFile ∨ l.kind.isName = true) :
    s'.Attentive := by
  intro l' hl' missing
  rw [readings] at hl'
  rcases List.mem_cons.1 hl' with rfl | older
  · exact new missing
  · exact (h l' older missing).imp_left fun ⟨literal, p, hp, there⟩ => ⟨literal, p, kept p hp, there⟩

theorem tokenProblem?_of_isQuoted {k : TokenKind} (quoted : k.isQuoted = true) :
    tokenProblem? k true ≠ none := by
  unfold TokenKind.isQuoted at quoted
  split at quoted
  · exact nofun
  · exact nofun
  · exact nofun
  · cases quoted

theorem literal_of_isQuoted {k : TokenKind} (quoted : k.isQuoted = true) :
    ∃ n, k = .literal n := by
  unfold TokenKind.isQuoted at quoted
  split at quoted
  · exact ⟨_, rfl⟩
  · exact ⟨_, rfl⟩
  · exact ⟨_, rfl⟩
  · cases quoted

/-- The token that is read next is noted when it misses its end, unless that cannot be told from its
kind. -/
theorem Attentive.readNext (h : s.Attentive) (ordered : s.readNext.Ordered text)
    (skips : s.lexer.skipTrivia = true) (footing : s.readNext.Footing text) :
    (noteToken s.readNext).2.Attentive := by
  rcases noteToken_cases footing with ⟨fine, same⟩ | ⟨length, cause, -, noted⟩
  · rw [same]
    refine h.cons rfl (fun _ hp => hp) fun missing => ?_
    rcases Lexer.scan_unclosed skips missing with ends | quoted | name
    · exact .inr (.inl ends)
    · change tokenProblem? s.lexer.scan.kind s.lexer.scan.flags.unterminated = none at fine
      rw [missing] at fine
      exact absurd fine (tokenProblem?_of_isQuoted quoted)
    · exact .inr (.inr name)
  · rw [noted]
    refine h.cons (report_readings ..) (report_keeps (s := s.readNext) _ length cause) fun missing => ?_
    rcases Lexer.scan_unclosed skips missing with ends | quoted | name
    · exact .inr (.inl ends)
    · exact .inl ⟨literal_of_isQuoted quoted, ordered.report_at _ length cause⟩
    · exact .inr (.inr name)

theorem Attentive.rescan (h : s.Attentive) (ordered : s.Ordered text) {change : Lexer → Lexer}
    (cause : SyntaxError) (first : (change s.lexer).first = s.lexer.first)
    (literal : ∃ k, (change s.lexer).kind = .literal k) : (rescan change cause s).2.Attentive := by
  have kept : (s.read (change s.lexer)).Ordered text :=
    ordered.ahead rfl rfl (Nat.le_of_eq (congrArg Cursor.offset first.symm))
  rw [run_rescan]
  split
  · rw [run_reportHere]
    exact h.cons (report_readings ..) (report_keeps (s := s.read (change s.lexer)) _ _ cause)
      fun _ => .inl ⟨literal, kept.report_at _ _ cause⟩
  · next closed => exact h.cons rfl (fun _ hp => hp) fun missing => absurd missing closed

theorem rescanSlash_literal {l : Lexer}
    (mark : l.kind = .mark .slash ∨ l.kind = .mark .slashEquals) :
    l.rescanSlash.kind = .literal .regularExpression := by
  unfold Lexer.rescanSlash
  rcases mark with slash | slashEquals
  · simp [slash]
  · simp [slashEquals]

theorem Attentive.move (standing : s.Standing text) (ordered : s.Ordered text) (h : s.Attentive)
    (m : Move s s') : s'.Attentive := by
  cases m with
  | report cause => exact h.report _ _ cause
  | advance =>
    have later := standing.readNext
    rw [run_advance]
    exact h.readNext (ordered.ahead rfl rfl later.first) standing.footing.sits.skips
      later.standing.footing
  | template brace => exact h.rescan ordered _ rfl ⟨_, rfl⟩
  | slash mark => exact h.rescan ordered _ (rescanSlash_first _) ⟨_, rescanSlash_literal mark⟩
  | context c => exact h
  | depth d deepest => exact h
  | token start stop ordinary => exact h
  | node flags start stop inner admits => exact h

/-! ### Nodes -/

/-- Whether no node is that of a whole text. -/
def Inner (t : Tree) : Prop :=
  ∀ (i : Nat) (n : Node), t.nodes[i]? = some n → n.kind ≠ .sourceFile

theorem Inner.grow {t t' : Tree} (h : Inner t) (e : t.Extends t') (size : t'.size = t.size + 1)
    (added : Node) (last : ∃ p, t'.nodes[t.size]? = some { added with parent := p })
    (inner : added.kind ≠ .sourceFile) : Inner t' := by
  intro i n hn
  rcases Tree.node_of_grown e size last hn with ⟨m, p, old, rfl⟩ | ⟨p, rfl⟩
  · exact h i m old
  · exact inner

theorem Inner.addToken {t : Tree} (h : Inner t) {k : NodeKind} (ordinary : k.isOrdinary = true)
    (start stop : Nat) : Inner (t.addToken k start stop).2 := by
  refine h.grow (Tree.addToken_extends ..) ?_ ⟨k, 0, start, stop, none, none⟩
    ⟨none, Array.getElem?_push_size⟩ (NodeKind.ne_sourceFile_of_isOrdinary ordinary)
  rw [Tree.size, Tree.addToken_nodes, Array.size_push]
  rfl

theorem Inner.move (h : Inner s.tree) (m : Move s s') : Inner s'.tree := by
  rcases m.grows with same | ⟨k, start, stop, ordinary, grown⟩ |
    ⟨k, flags, start, stop, r, inner, -, grown⟩
  · rwa [same]
  · rw [grown]
    exact h.addToken ordinary start stop
  · rw [grown]
    exact h.grow (Tree.add_extends ..) (Tree.add_size ..)
      ⟨k, flags, start, stop, some (s.tree.nextSlot r.shape), none⟩
      (Tree.exists_node_of_add ..) inner

theorem Inner.eq_size {t t' : Tree} (h : Inner t) (e : t.Extends t') (size : t'.size = t.size + 1)
    {i : Nat} {n : Node} (hn : t'.nodes[i]? = some n) (whole : n.kind = .sourceFile) : i = t.size := by
  have inside := Tree.lt_size_of_node hn
  by_contra other
  have old : i < t.size := by omega
  obtain ⟨p, hp⟩ := e.node (Array.getElem?_eq_getElem old)
  obtain rfl := Option.some.inj (hn.symm.trans hp)
  exact h i _ (Array.getElem?_eq_getElem old) whole

/-- No move makes a chain too long. -/
theorem shallow_move (standing : s.Standing text) (h : s.tree.Shallow) (m : Move s s') :
    s'.tree.Shallow := by
  rcases m.grows with same | ⟨k, start, stop, ordinary, grown⟩ |
    ⟨k, flags, start, stop, r, -, admits, grown⟩
  · rwa [same]
  · rw [grown]
    exact h.addToken ordinary start stop
  · rw [grown]
    exact h.add standing.pools admits flags start stop

/-! ### All together -/

/-- What holds in every state of the parsing of a text. -/
structure Regular (text : List Char) (s : ParserState) : Prop where
  ordered : s.Ordered text
  attentive : s.Attentive
  inner : Inner s.tree
  shallow : s.tree.Shallow

theorem Regular.move (standing : s.Standing text) (h : s.Regular text) (m : Move s s') :
    s'.Regular text where
  ordered := h.ordered.move standing m
  attentive := h.attentive.move standing h.ordered m
  inner := h.inner.move m
  shallow := shallow_move standing h.shallow m

theorem Regular.moves (h : s.Regular text) (standing : s.Standing text) (m : Moves s s') :
    s'.Regular text :=
  m.keeps (fun _ _ standing regular move => regular.move standing move) standing h

end ParserState

end PathGuard
