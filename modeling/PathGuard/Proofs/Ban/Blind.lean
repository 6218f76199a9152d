import PathGuard.Proofs.Grammar.Rules
/-!
# Parsing that does not see the ban on `in`

A parser is blind to the ban when it does the same with and without it, and only the context that it
leaves tells which it was. The operations on tokens are: they never ask whether `in` is an operator.
So is whatever runs in brackets or in a function, since it gets a context of its own.
-/

namespace PathGuard

namespace ParserState

def banned (s : ParserState) : ParserState := { s with context := s.context.forbidIn }

/-- What a parser leaves as it was: the nodes that are there, and the context. -/
structure Kept (s s' : ParserState) : Prop where
  tree : s.tree.Extends s'.tree
  pools : s'.tree.pools.size = Shape.count
  context : s'.context = s.context

theorem Kept.refl {s : ParserState} (pools : s.tree.pools.size = Shape.count) : s.Kept s :=
  ⟨.refl s.tree, pools, rfl⟩

theorem Kept.trans {s s' s'' : ParserState} (h : s.Kept s') (h' : s'.Kept s'') : s.Kept s'' :=
  ⟨h.tree.trans h'.tree, h'.pools, h'.context.trans h.context⟩

theorem Kept.of_same {s s' : ParserState} (pools : s.tree.pools.size = Shape.count)
    (tree : s'.tree = s.tree) (context : s'.context = s.context) : s.Kept s' :=
  ⟨tree ▸ .refl s.tree, tree ▸ pools, context⟩

theorem banned_eq {s : ParserState} (h : s.context.forbidsIn = true) : s.banned = s := by
  obtain ⟨lexer, previousEnd, lastProblem, problems, tree, ⟨isAsync, isGenerator, forbidsIn⟩, depth,
    readings, deepest⟩ := s
  change forbidsIn = true at h
  subst h
  rfl

end ParserState

namespace Parser

open ParserState

variable {α β σ : Type}

/-- Whether a parser does the same with and without the ban. -/
def Blind (act : Parser α) : Prop := ∀ s, act s.banned = ((act s).1, (act s).2.banned)

/-- Whether a parser leaves the nodes that are there, and the context. -/
def Keeps (act : Parser α) : Prop :=
  ∀ s : ParserState, s.tree.pools.size = Shape.count → s.Kept (act s).2

/-- A parser that is blind to the ban and leaves what was there. -/
structure Neutral (act : Parser α) : Prop where
  blind : Blind act
  keeps : Keeps act

/-! ### Keeping -/

namespace Keeps

variable {act : Parser α} {next : α → Parser β}

theorem pure (a : α) : Keeps (Pure.pure a) := fun _ pools => .refl pools

theorem bind (h : Keeps act) (k : ∀ a, Keeps (next a)) : Keeps (act >>= next) := by
  intro s pools
  have first := h s pools
  exact first.trans (k _ _ first.pools)

theorem within (change : Context → Context) (h : Keeps act) :
    Keeps (Parser.within change act) := by
  intro s pools
  have inside := h { s with context := change s.context } pools
  exact ⟨inside.tree, inside.pools, rfl⟩

theorem closed : Closed Keeps := ⟨pure, bind⟩

end Keeps

/-! ### Being blind -/

theorem blind_within {change : Context → Context} (own : ∀ c : Context, change c.forbidIn = change c)
    (act : Parser α) : Blind (within change act) := by
  intro s
  have same : ({ s.banned with context := change s.context.forbidIn } : ParserState) =
      { s with context := change s.context } := by
    rw [own]
    rfl
  change ((act { s.banned with context := change s.context.forbidIn }).1,
    { (act { s.banned with context := change s.context.forbidIn }).2 with
      context := s.context.forbidIn }) = _
  rw [same]
  rfl

namespace Neutral

variable {act : Parser α} {next : α → Parser β}

theorem pure (a : α) : Neutral (Pure.pure a) := ⟨fun _ => rfl, .pure a⟩

theorem bind (h : Neutral act) (k : ∀ a, Neutral (next a)) : Neutral (act >>= next) := by
  refine ⟨fun s => ?_, h.keeps.bind fun a => (k a).keeps⟩
  change next (act s.banned).1 (act s.banned).2 = _
  rw [h.blind s]
  exact (k (act s).1).blind (act s).2

theorem closed : Closed Neutral := ⟨pure, bind⟩

theorem of_looks (h : Looks act) (same : ∀ s : ParserState, (act s.banned).1 = (act s).1) :
    Neutral act := by
  refine ⟨fun s => Prod.ext (same s) ?_, fun s pools => ?_⟩
  · change (act s.banned).2 = (act s).2.banned
    rw [h, h]
  · rw [h]
    exact .refl pools

theorem within {change : Context → Context} (own : ∀ c : Context, change c.forbidIn = change c)
    (h : Keeps act) : Neutral (Parser.within change act) :=
  ⟨blind_within own act, h.within change⟩

theorem lookAhead (h : Neutral act) : Neutral (Parser.lookAhead act) := by
  refine ⟨fun s => ?_, fun s pools => ?_⟩
  · change ((act s.banned).1, { (act s.banned).2 with lexer := s.lexer }) = _
    rw [h.blind s]
    rfl
  · have kept := h.keeps s pools
    exact ⟨kept.tree, kept.pools, kept.context⟩

end Neutral

/-! ### Looking -/

theorem neutral_kind : Neutral kind := .of_looks looks_kind fun _ => rfl
theorem neutral_tokenStart : Neutral tokenStart := .of_looks looks_tokenStart fun _ => rfl
theorem neutral_tokenCursor : Neutral tokenCursor := .of_looks looks_tokenCursor fun _ => rfl
theorem neutral_tokenEnd : Neutral tokenEnd := .of_looks looks_tokenEnd fun _ => rfl
theorem neutral_tokenValue : Neutral tokenValue := .of_looks looks_tokenValue fun _ => rfl
theorem neutral_tokenText : Neutral tokenText := .of_looks looks_tokenText fun _ => rfl
theorem neutral_afterLineBreak : Neutral afterLineBreak :=
  .of_looks looks_afterLineBreak fun _ => rfl
theorem neutral_unterminated : Neutral unterminated := .of_looks looks_unterminated fun _ => rfl
theorem neutral_atIdentifier : Neutral atIdentifier := .of_looks looks_atIdentifier fun _ => rfl
theorem neutral_previousEnd : Neutral previousEnd := .of_looks looks_previousEnd fun _ => rfl
theorem neutral_textLeft : Neutral textLeft := .of_looks looks_textLeft fun _ => rfl
theorem neutral_spansLines (c : Cursor) : Neutral (spansLines c) :=
  .of_looks (looks_spansLines c) fun _ => rfl
theorem neutral_atStatementEnd : Neutral atStatementEnd :=
  .of_looks looks_atStatementEnd fun _ => rfl
theorem neutral_rowFrom (start : Nat) (nodes : List Child) (trailingComma : Bool) :
    Neutral (rowFrom start nodes trailingComma) := .of_looks (fun _ => rfl) fun _ => rfl

/-! ### Moving on -/

theorem neutral_reread (change : Lexer → Lexer) : Neutral (reread change) :=
  ⟨fun _ => rfl, fun _ pools => .of_same pools rfl rfl⟩

theorem Neutral.moving : Moving Neutral where
  toClosed := Neutral.closed
  kind := neutral_kind
  tokenStart := neutral_tokenStart
  tokenEnd := neutral_tokenEnd
  afterLineBreak := neutral_afterLineBreak
  unterminated := neutral_unterminated
  report := by
    refine fun start length cause => ⟨fun s => ?_, fun s pools => ?_⟩
    · change ((), if s.lastProblem = some start then s.banned else _) =
        ((), (if s.lastProblem = some start then s else _ : ParserState).banned)
      split <;> rfl
    · change s.Kept (if s.lastProblem = some start then s else _)
      split <;> exact .of_same pools rfl rfl
  recordReading := ⟨fun _ => rfl, fun _ pools => .of_same pools rfl rfl⟩
  pass := ⟨fun _ => rfl, fun _ pools => .of_same pools rfl rfl⟩

theorem neutral_rescan (change : Lexer → Lexer) (cause : SyntaxError) :
    Neutral (rescan change cause) := Neutral.moving.rescan (neutral_reread change) cause

/-! ### Looking ahead -/

theorem neutral_skip : Neutral skip := ⟨fun _ => rfl, fun _ pools => .of_same pools rfl rfl⟩

theorem Neutral.scouting : Scouting Neutral where
  toClosed := Neutral.closed
  kind := neutral_kind
  afterLineBreak := neutral_afterLineBreak
  atIdentifier := neutral_atIdentifier
  textLeft := neutral_textLeft
  skip := neutral_skip
  reread := neutral_reread

theorem neutral_peek : Neutral peek :=
  Neutral.lookAhead <| neutral_skip.bind fun _ => neutral_kind.bind fun _ =>
    neutral_afterLineBreak.bind fun _ => .pure _

theorem neutral_arrowAhead : Neutral arrowAhead :=
  Neutral.scouting.arrowAhead Neutral.closed neutral_kind neutral_atIdentifier Neutral.lookAhead

theorem neutral_letDeclarationAhead : Neutral letDeclarationAhead :=
  neutral_peek.bind fun _ => .pure _

theorem neutral_asyncFunctionAhead : Neutral asyncFunctionAhead :=
  neutral_peek.bind fun _ => .pure _

theorem neutral_importExpressionAhead : Neutral importExpressionAhead :=
  neutral_peek.bind fun _ => .pure _

/-! ### Nodes -/

theorem neutral_growing {grow : Tree → NodeId × Tree} (tree : ∀ t : Tree, t.Extends (grow t).2)
    (pools : ∀ t : Tree, (grow t).2.pools.size = t.pools.size) : Neutral (growing grow) :=
  ⟨fun _ => rfl, fun s size => ⟨tree s.tree, (pools s.tree).trans size, rfl⟩⟩

theorem neutral_addToken (k : NodeKind) (start stop : Nat) : Neutral (addToken k start stop) :=
  neutral_growing (fun t => t.addToken_extends k start stop) fun _ => rfl

theorem neutral_addSpanned (k : NodeKind) (start stop : Nat) (r : Record) :
    Neutral (addSpanned k start stop r) := by
  refine neutral_growing (fun t => t.add_extends k 0 start stop r) fun t => ?_
  rw [Tree.add_pools, Array.size_modify]

theorem neutral_addFlagged (k : NodeKind) (flags start : Nat) (r : Record) :
    Neutral (addFlagged k flags start r) := by
  refine neutral_previousEnd.bind fun stop => ?_
  refine neutral_growing (fun t => t.add_extends k flags start stop r) fun t => ?_
  rw [Tree.add_pools, Array.size_modify]

theorem neutral_add (k : NodeKind) (start : Nat) (r : Record) : Neutral (add k start r) :=
  neutral_addFlagged k 0 start r

end Parser

end PathGuard
