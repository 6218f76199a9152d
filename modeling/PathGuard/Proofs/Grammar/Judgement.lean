import PathGuard.Grammar.Lookahead
/-!
# Judgements about parsers

What is proved of the grammar is proved rule by rule, and a rule is put together from other parsers
in a few ways. The laws here hold of every judgement: a parser that branches is judged by its branches,
and what a `do` block does behind a branch, which stands in each branch, may be put behind both of
them again. A judgement that is closed, which asks nothing of the answers, holds of whatever is made
of parsers of which it holds; so it is enough to look at the operations on the state.
-/

namespace PathGuard.Parser

variable {α β σ : Type}

/-! ### Branches and answers -/

/-- A `do` block ends each case of a branch with what is done behind the branch. -/
theorem ite_bind {c : Prop} [Decidable c] (act other : Parser α) (next : α → Parser β) :
    (if c then act else other) >>= next = if c then act >>= next else other >>= next := by
  split <;> rfl

section

variable {J : Parser β → Prop} {c : Prop} [Decidable c] {yes no : Parser β} {act other : Parser α}
  {next : α → Parser β} {first : Parser Unit} {last : Unit → Parser β}

@[elab_as_elim]
theorem decided (h : c → J yes) (h' : ¬c → J no) : J (if c then yes else no) := by
  split
  · next holds => exact h holds
  · next fails => exact h' fails

@[elab_as_elim]
theorem either (h : J yes) (h' : J no) : J (if c then yes else no) :=
  decided (fun _ => h) fun _ => h'

@[elab_as_elim]
theorem atOnce {a : α} (h : J (next a)) : J (pure a >>= next) := h

@[elab_as_elim]
theorem mapped {f : α → β} (h : J (act >>= fun a => pure (f a))) : J (f <$> act) := h

@[elab_as_elim]
theorem merged (h : J ((if c then act else other) >>= next)) :
    J (if c then act >>= next else other >>= next) := by
  rwa [ite_bind] at h

@[elab_as_elim]
theorem mergedWhen (h : J ((if c then first else pure ()) >>= last)) :
    J (if c then first >>= last else last ()) := by
  rwa [ite_bind] at h

@[elab_as_elim]
theorem mergedUnless (h : J ((if c then pure () else first) >>= last)) :
    J (if c then last () else first >>= last) := by
  rwa [ite_bind] at h

end

/-! ### Repetition -/

theorem repeatWithin_induction {motive : σ → Parser σ → Prop} {step : σ → Parser (ForInStep σ)}
    (pure : ∀ acc, motive acc (Pure.pure acc))
    (bind : ∀ acc (next : ForInStep σ → Parser σ),
      (∀ answer, motive answer.value (next answer)) → motive acc (step acc >>= next))
    (bound : List Char) (acc : σ) : motive acc (repeatWithin step bound acc) := by
  induction bound generalizing acc with
  | nil =>
    apply bind
    intro answer
    cases answer with
    | done acc => exact pure acc
    | yield acc => exact pure acc
  | cons c bound ih =>
    apply bind
    intro answer
    cases answer with
    | done acc => exact pure acc
    | yield acc => exact ih acc

/-! ### Closed judgements -/

/-- Whether a judgement holds of what only answers, and of one parser behind another where it holds
of both. -/
structure Closed (J : {α : Type} → Parser α → Prop) : Prop where
  pure : ∀ {α : Type} (a : α), J (Pure.pure a)
  bind : ∀ {α β : Type} {act : Parser α} {next : α → Parser β}, J act → (∀ a, J (next a)) →
    J (act >>= next)

variable {J J' : {α : Type} → Parser α → Prop}

theorem Closed.repeatWithin (closed : Closed J) {step : σ → Parser (ForInStep σ)}
    (h : ∀ acc, J (step acc)) (bound : List Char) (acc : σ) : J (repeatWithin step bound acc) :=
  repeatWithin_induction (motive := fun _ act => J act) closed.pure
    (fun acc _ later => closed.bind (h acc) later) bound acc

theorem Closed.repeating (closed : Closed J) (textLeft : J textLeft) {step : σ → Parser (ForInStep σ)}
    (h : ∀ acc, J (step acc)) (acc : σ) : J (repeating step acc) :=
  closed.bind textLeft fun text => closed.repeatWithin h text acc

/-- A closed judgement that holds of what a parser looks ahead with. -/
structure Scouting (J : {α : Type} → Parser α → Prop) : Prop extends Closed J where
  kind : J kind
  afterLineBreak : J afterLineBreak
  atIdentifier : J atIdentifier
  textLeft : J textLeft
  skip : J skip
  reread : ∀ change, J (reread change)

namespace Scouting

variable (scouting : Scouting J)
include scouting

theorem isAt (k : TokenKind) : J (isAt k) := scouting.bind scouting.kind fun _ => scouting.pure _

theorem skipGroupWithin (bound : List Char) (opened : List Opening) :
    J (skipGroupWithin bound opened) := by
  induction bound generalizing opened with
  | nil => exact scouting.pure false
  | cons c bound ih =>
    have onward (opened : List Opening) :
        J (Parser.skip >>= fun _ => Parser.skipGroupWithin bound opened) :=
      scouting.bind scouting.skip fun _ => ih opened
    unfold Parser.skipGroupWithin
    refine scouting.bind scouting.kind fun k => ?_
    split
    · exact scouting.pure false
    · exact onward _
    · exact onward _
    · exact onward _
    · exact onward _
    · split
      · exact scouting.bind scouting.skip fun _ => scouting.pure true
      · exact onward _
      · exact scouting.pure false
    · split
      · exact onward _
      · exact scouting.pure false
    · split
      · refine scouting.bind (scouting.reread _) fun _ =>
          scouting.bind (scouting.isAt _) fun ends => ?_
        exact onward _
      · exact onward _
      · exact scouting.pure false
    · exact onward _

theorem atArrow : J atArrow := by
  refine scouting.bind (scouting.isAt _) fun found => ?_
  exact either (scouting.bind scouting.afterLineBreak fun _ => scouting.pure _) (scouting.pure false)

theorem groupThenArrow : J groupThenArrow := by
  have group : J skipGroup :=
    scouting.bind scouting.textLeft fun text => scouting.skipGroupWithin text []
  exact scouting.bind group fun closed => either scouting.atArrow (scouting.pure false)

theorem tokenThenArrow : J tokenThenArrow := scouting.bind scouting.skip fun _ => scouting.atArrow

theorem asyncThenArrow : J asyncThenArrow := by
  refine scouting.bind scouting.skip fun _ => scouting.bind scouting.afterLineBreak fun broken => ?_
  refine either (scouting.pure false) (scouting.bind (scouting.isAt _) fun group => ?_)
  refine either scouting.groupThenArrow (scouting.bind scouting.atIdentifier fun name => ?_)
  exact either scouting.tokenThenArrow (scouting.pure false)

/-- A parser that has looked ahead is back where it was, so it may be judged in another way. -/
theorem arrowAhead (closed : Closed J') (kind : J' Parser.kind) (atIdentifier : J' Parser.atIdentifier)
    (ahead : ∀ {act : Parser Bool}, J act → J' (lookAhead act)) : J' arrowAhead := by
  refine closed.bind kind fun k => ?_
  split
  · exact closed.bind (ahead scouting.groupThenArrow) fun _ => closed.pure _
  · refine closed.bind (ahead scouting.asyncThenArrow) fun found => ?_
    exact either (closed.pure _) (closed.bind (ahead scouting.tokenThenArrow) fun _ => closed.pure _)
  · refine closed.bind atIdentifier fun name => ?_
    exact either (closed.bind (ahead scouting.tokenThenArrow) fun _ => closed.pure _) (closed.pure none)

end Scouting

/-- A closed judgement that holds of what a parser passes tokens and notes problems with. -/
structure Moving (J : {α : Type} → Parser α → Prop) : Prop extends Closed J where
  kind : J kind
  tokenStart : J tokenStart
  tokenEnd : J tokenEnd
  afterLineBreak : J afterLineBreak
  unterminated : J unterminated
  report : ∀ start length cause, J (report start length cause)
  recordReading : J recordReading
  pass : J (modify fun s : ParserState =>
    { s with previousEnd := s.lexer.here.offset, lexer := s.lexer.scan })

namespace Moving

variable (moving : Moving J)
include moving

theorem isAt (k : TokenKind) : J (isAt k) := moving.bind moving.kind fun _ => moving.pure _

theorem reportHere (cause : SyntaxError) : J (reportHere cause) :=
  moving.bind moving.tokenStart fun _ => moving.bind moving.tokenEnd fun _ => moving.report _ _ _

theorem advance : J advance := by
  refine moving.bind moving.pass fun _ => moving.bind moving.recordReading fun _ => ?_
  refine moving.bind moving.tokenStart fun start => moving.bind moving.tokenEnd fun stop => ?_
  refine moving.bind moving.kind fun k => moving.bind moving.unterminated fun open_ => ?_
  cases tokenProblem? k open_ with
  | none => exact moving.pure ()
  | some cause => exact moving.report _ _ _

theorem rescan {change : Lexer → Lexer} (reread : J (reread change)) (cause : SyntaxError) :
    J (rescan change cause) := by
  refine moving.bind reread fun _ => moving.bind moving.recordReading fun _ => ?_
  refine moving.bind moving.unterminated fun open_ => ?_
  exact either (moving.reportHere cause) (moving.pure ())

theorem accept (k : TokenKind) : J (accept k) := by
  refine moving.bind (moving.isAt k) fun found => ?_
  exact either (moving.bind moving.advance fun _ => moving.pure true) (moving.pure false)

theorem expect (k : TokenKind) : J (expect k) := by
  refine moving.bind (moving.accept k) fun found => ?_
  exact either (moving.pure ()) (moving.reportHere _)

theorem endStatement : J endStatement := by
  have ended : J atStatementEnd :=
    moving.bind moving.kind fun _ => moving.bind moving.afterLineBreak fun _ => moving.pure _
  refine moving.bind (moving.accept _) fun found => either (moving.pure ()) ?_
  exact moving.bind ended fun ended => either (moving.pure ()) (moving.expect _)

end Moving

end PathGuard.Parser
