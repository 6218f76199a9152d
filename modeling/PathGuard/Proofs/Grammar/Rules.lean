import PathGuard.Grammar.Lookahead
import PathGuard.Proofs.Grammar.Making
/-!
# Laws of the operations on the state

What the operations of the parser make: those on tokens make nothing, those that add a node turn the
parts that are held into that node, and the others make what the parsers make that they run.
-/

namespace PathGuard.Parser

variable {α β σ : Type}

/-! ### Looking -/

theorem looks_kind : Looks kind := fun _ => rfl
theorem looks_tokenStart : Looks tokenStart := fun _ => rfl
theorem looks_tokenCursor : Looks tokenCursor := fun _ => rfl
theorem looks_tokenEnd : Looks tokenEnd := fun _ => rfl
theorem looks_tokenValue : Looks tokenValue := fun _ => rfl
theorem looks_tokenText : Looks tokenText := fun _ => rfl
theorem looks_afterLineBreak : Looks afterLineBreak := fun _ => rfl
theorem looks_unterminated : Looks unterminated := fun _ => rfl
theorem looks_context : Looks context := fun _ => rfl
theorem looks_isAt (k : TokenKind) : Looks (isAt k) := fun _ => rfl
theorem looks_atIdentifier : Looks atIdentifier := fun _ => rfl
theorem looks_previousEnd : Looks previousEnd := fun _ => rfl
theorem looks_textLeft : Looks textLeft := fun _ => rfl
theorem looks_spansLines (c : Cursor) : Looks (spansLines c) := fun _ => rfl
theorem looks_atStatementEnd : Looks atStatementEnd := fun _ => rfl

theorem looks_within {act : Parser α} (h : Looks act) (change : Context → Context) :
    Looks (within change act) := by
  intro s
  change { (act { s with context := change s.context }).2 with context := s.context } = s
  rw [h]

/-! ### Looking ahead -/

/-- A parser that changes nothing but the place of the lexer. -/
def Scouts (act : Parser α) : Prop := ∀ s, ∃ l, (act s).2 = { s with lexer := l }

theorem Looks.scouts {act : Parser α} (h : Looks act) : Scouts act := fun s => ⟨s.lexer, h s⟩

theorem Scouts.scouting : Scouting Scouts where
  pure := fun a => (Looks.closed.pure a).scouts
  bind := by
    intro α β act next h k s
    obtain ⟨l, hl⟩ := h s
    obtain ⟨l', hl'⟩ := k (act s).1 (act s).2
    refine ⟨l', ?_⟩
    change (next (act s).1 (act s).2).2 = _
    rw [hl', hl]
  kind := looks_kind.scouts
  afterLineBreak := looks_afterLineBreak.scouts
  atIdentifier := looks_atIdentifier.scouts
  textLeft := looks_textLeft.scouts
  skip := fun _ => ⟨_, rfl⟩
  reread := fun _ _ => ⟨_, rfl⟩

theorem Scouts.looks {act : Parser α} (h : Scouts act) : Looks (lookAhead act) := by
  intro s
  obtain ⟨l, hl⟩ := h s
  change { (act s).2 with lexer := s.lexer } = s
  rw [hl]

theorem looks_peek : Looks peek := by
  refine Scouts.looks (Scouts.scouting.bind Scouts.scouting.skip fun _ => Looks.scouts ?_)
  exact Looks.closed.bind looks_kind fun _ => Looks.closed.bind looks_afterLineBreak fun _ =>
    Looks.closed.pure _

theorem looks_arrowAhead : Looks arrowAhead :=
  Scouts.scouting.arrowAhead Looks.closed looks_kind looks_atIdentifier Scouts.looks

theorem looks_letDeclarationAhead : Looks letDeclarationAhead :=
  Looks.closed.bind looks_peek fun _ => Looks.closed.pure _

theorem looks_asyncFunctionAhead : Looks asyncFunctionAhead :=
  Looks.closed.bind looks_peek fun _ => Looks.closed.pure _

theorem looks_importExpressionAhead : Looks importExpressionAhead :=
  Looks.closed.bind looks_peek fun _ => Looks.closed.pure _

/-! ### Moving on -/

theorem Idle.moving : Moving Idle where
  toClosed := Idle.closed
  kind := looks_kind.idle
  tokenStart := looks_tokenStart.idle
  tokenEnd := looks_tokenEnd.idle
  afterLineBreak := looks_afterLineBreak.idle
  unterminated := looks_unterminated.idle
  report := by
    intro start length cause s
    change (if s.lastProblem = some start then s else _).tree = s.tree ∧
      (if s.lastProblem = some start then s else _).depth = s.depth
    split <;> exact ⟨rfl, rfl⟩
  recordReading := fun _ => ⟨rfl, rfl⟩
  pass := fun _ => ⟨rfl, rfl⟩

theorem idle_rescan (change : Lexer → Lexer) (cause : SyntaxError) : Idle (rescan change cause) :=
  Idle.moving.rescan (fun _ => ⟨rfl, rfl⟩) cause

/-! ### Nesting and repeating -/

theorem run_nested_deepest {act : Parser Child} {s : ParserState} (deepest : maxDepth ≤ s.depth) :
    nested act s = (reportHere .nestingTooDeep >>= fun _ => skipAsMissing) s := by
  change (if maxDepth ≤ s.depth then _ else _ : Parser Child) s = _
  rw [if_pos deepest]

theorem run_nested_deeper {act : Parser Child} {s : ParserState} (room : ¬maxDepth ≤ s.depth) :
    nested act s = ((act s.deeper).1,
      { (act s.deeper).2 with depth := (act s.deeper).2.depth - 1 }) := by
  change (if maxDepth ≤ s.depth then _ else _ : Parser Child) s = _
  rw [if_neg room]
  rfl

namespace MakesAt

variable {at_ : TokenKind → Prop} {P : List Part} {act : Parser α} {next : α → Parser β}
  {Q : α → List Part} {R : β → List Part}

theorem kind {next : TokenKind → Parser β}
    (k : ∀ found, at_ found → MakesAt (· = found) P (next found) R) :
    MakesAt at_ P (Parser.kind >>= next) R :=
  fun s₀ Γ s token held => k s.lexer.kind token s₀ Γ s rfl held

theorem note {cause : SyntaxError} {next : Unit → Parser β}
    (k : MakesAt at_ P (next ()) R) : MakesAt at_ P (reportHere cause >>= next) R := by
  intro s₀ Γ s token held
  obtain ⟨tree, depth⟩ := Idle.moving.reportHere cause s
  have lexer : (reportHere cause s).2.lexer = s.lexer := by
    change (if s.lastProblem = some s.lexer.first.offset then s else _ : ParserState).lexer = _
    split <;> rfl
  have here : at_ (reportHere cause s).2.lexer.kind := by
    rw [lexer]
    exact token
  exact k s₀ Γ _ here (held.of_tree tree depth)

theorem rescan {at' : TokenKind → Prop} {change : Lexer → Lexer} {cause : SyntaxError}
    {next : Unit → Parser β} (now : ∀ l : Lexer, at_ l.kind → at' (change l).kind)
    (k : MakesAt at' P (next ()) R) : MakesAt at_ P (Parser.rescan change cause >>= next) R := by
  have noted : MakesAt at' P
      (unterminated >>= fun open_ => (if open_ then reportHere cause else Pure.pure ()) >>= next) R := by
    refine look looks_unterminated fun open_ => ?_
    cases open_ with
    | true => exact note k
    | false => exact k
  intro s₀ Γ s token held
  exact noted s₀ Γ { s with lexer := change s.lexer, readings := change s.lexer :: s.readings }
    (now s.lexer token) (held.of_tree rfl rfl)

theorem isAt {wanted : TokenKind} {next : Bool → Parser β}
    (yes : MakesAt (· = wanted) P (next true) R)
    (no : MakesAt at_ P (next false) R) :
    MakesAt at_ P (Parser.isAt wanted >>= next) R := by
  intro s₀ Γ s token held
  change Held s₀ (Γ ++ R (next (s.lexer.kind == wanted) s).1)
    (next (s.lexer.kind == wanted) s).2
  by_cases found : s.lexer.kind = wanted
  · rw [found, beq_self_eq_true]
    exact yes s₀ Γ s found held
  · rw [beq_eq_false_iff_ne.2 found]
    exact no s₀ Γ s token held

/-! ### Context, depth and repetition -/

theorem within (change : Context → Context) (h : MakesAt at_ P act Q) :
    MakesAt at_ P (Parser.within change act) Q := by
  intro s₀ Γ s token held
  have inside := h s₀ Γ { s with context := change s.context } token (held.of_tree rfl rfl)
  exact inside.of_tree rfl rfl

theorem skipAsMissing {role : Role} (possible : role.sure = false) :
    MakesAt at_ P Parser.skipAsMissing fun child => P ++ one role child := by
  have missing : Part.Covers P (P ++ one role none) := by
    have more : Part.Covers [] (one role none) := .missing possible .nil
    have both := more.append_left P
    rwa [List.append_nil] at both
  refine look (looks_isAt _) fun ended => ?_
  cases ended with
  | true => exact pure missing
  | false => exact idle Idle.moving.advance fun _ => pure missing

/-- One level deeper, what may rise by two comes down to the level above. -/
theorem nested {act : Parser Child} {admits : NodeKind → Nat → Bool} {rise : Nat}
    (low : rise ≤ 2) (h : Makes [] act (one ⟨admits, rise, false⟩)) :
    MakesAt at_ [] (Parser.nested act) (one ⟨admits, 0, false⟩) := by
  intro s₀ Γ s token held
  rw [List.append_nil] at held
  by_cases deepest : maxDepth ≤ s.depth
  · rw [run_nested_deepest deepest]
    have halted : MakesAt at_ [] (reportHere .nestingTooDeep >>= fun _ => Parser.skipAsMissing)
        (one ⟨admits, 0, false⟩) :=
      idle (Idle.moving.reportHere _) fun _ => skipAsMissing rfl
    exact halted s₀ Γ s token (by rwa [List.append_nil])
  · rw [run_nested_deeper deepest]
    have room : s.deeper.depth ≤ maxDepth := by
      change s.depth + 1 ≤ maxDepth
      omega
    have inner := h s.deeper [] s.deeper trivial (.start held.sound room)
    refine held.append {
      sound := inner.sound
      grown := inner.grown
      kept := inner.kept
      depth := by rw [inner.depth]; rfl
      deep := by omega
      sorted := inner.sorted
      free := fun p hp => ?_ }
    rw [one, List.mem_singleton] at hp
    subst hp
    have free := inner.free ⟨_, ⟨admits, rise, false⟩⟩ (List.mem_singleton_self _)
    refine ⟨Bool.noConfusion, fun i hi => ?_⟩
    obtain ⟨base, n, hn, orphan, fits, deep⟩ := free.node i hi
    refine ⟨base, n, hn, orphan, fits, deep.mono ?_⟩
    -- one level of parsing allows for two more levels of nesting
    change 2 * (maxDepth - (s.depth + 1)) + rise ≤ 2 * (maxDepth - s.depth) + 0
    omega

theorem repeating {I : σ → List Part} {step : σ → Parser (ForInStep σ)}
    (h : ∀ acc, Makes (I acc) (step acc) fun answer => I answer.value) (acc : σ) :
    MakesAt at_ (I acc) (Parser.repeating step acc) I := by
  have bounded (bound : List Char) (acc : σ) : Makes (I acc) (repeatWithin step bound acc) I :=
    repeatWithin_induction (motive := fun acc act => Makes (I acc) act I) (fun _ => pure (.refl _))
      (fun acc _ later => (h acc).bind later) bound acc
  exact look looks_textLeft fun text => (bounded text acc).any

theorem rowFrom {start : Nat} {nodes : List Child} {trailingComma : Bool}
    {Q : NodeList → List Part}
    (covers : ∀ stop, Part.Covers P (Q ⟨nodes, start, stop, trailingComma⟩)) :
    MakesAt at_ P (Parser.rowFrom start nodes trailingComma) Q :=
  fun _ _ s _ held => (covers s.previousEnd).held held

end MakesAt

end PathGuard.Parser
