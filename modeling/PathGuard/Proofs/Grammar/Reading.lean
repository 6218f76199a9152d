import PathGuard.Grammar.Program
import PathGuard.Proofs.Token.Spelling
import PathGuard.Proofs.Tree.Growth
/-!
# Reading words

What the operations of a parser do when it stands at the first of some words: each reads the words
that it should, notes no problem, and adds the nodes that it should.
-/

namespace PathGuard

namespace Parser

/-- The kind of the first word, or that of the ending when there is none. -/
def headKind (ws : List Word) (e : Ending := .endOfText) : TokenKind :=
  match ws with
  | [] => e.kind
  | w :: _ => w.kind

/-- Whether a parser stands at the first of some words, `offset` bytes being behind it, and has
noted no problem. -/
structure At (offset : Nat) (ws : List Word) (c : Context) (depth : Nat) (s : ParserState)
    (e : Ending := .endOfText) : Prop where
  stands : s.lexer.Stands offset ws e
  previous : s.previousEnd = offset
  problems : s.problems = []
  context : s.context = c
  depth : s.depth = depth
  pools : s.tree.pools.size = Shape.count

/-- Whether a parser, at the first of some words, makes a node and stops at others. -/
def Reads (m : Parser Child) (offset : Nat) (ws : List Word) (c : Context) (depth : Nat)
    (offset' : Nat) (ws' : List Word) (Q : Nat → Tree → Prop) (e : Ending := .endOfText)
    (e' : Ending := e) : Prop :=
  ∀ s, At offset ws c depth s e → ∃ i s', m s = (some i, s') ∧ At offset' ws' c depth s' e' ∧
    s.tree.Extends s'.tree ∧ Q i s'.tree

theorem run_bind {α β : Type} {m : Parser α} {f : α → Parser β} {s s' : ParserState} {a : α}
    (h : m s = (a, s')) : (m >>= f) s = f a s' := by
  change (match m s with | (a, s') => f a s') = _
  rw [h]

theorem run_modify (change : ParserState → ParserState) (s : ParserState) :
    (modify change : Parser Unit) s = ((), change s) := rfl

theorem run_recordReading (s : ParserState) :
    recordReading s = ((), { s with readings := s.lexer :: s.readings }) := rfl

theorem run_tokenStart (s : ParserState) : tokenStart s = (s.lexer.first.offset, s) := rfl

theorem run_tokenEnd (s : ParserState) : tokenEnd s = (s.lexer.here.offset, s) := rfl

variable {offset depth : Nat} {ws : List Word} {e : Ending} {w : Word} {c : Context} {s : ParserState}

namespace At

/-! ### Looking -/

theorem kind (h : At offset ws c depth s e) : Parser.kind s = (headKind ws e, s) := by
  cases ws with
  | nil => exact Prod.ext h.stands.kind rfl
  | cons w ws => exact Prod.ext h.stands.1.1 rfl

theorem isAt (h : At offset ws c depth s e) (k : TokenKind) :
    Parser.isAt k s = (headKind ws e == k, s) := by
  rw [Parser.isAt, run_bind h.kind]
  rfl

theorem atWord (h : At offset ws c depth s e) (k : Keyword) :
    Parser.atWord k s = (headKind ws e == .word k, s) := h.isAt _

theorem context_eq (h : At offset ws c depth s e) : Parser.context s = (c, s) :=
  Prod.ext h.context rfl

theorem atIdentifier (h : At offset ws c depth s e) :
    Parser.atIdentifier s = (isNameIn c (headKind ws e), s) := by
  rw [Parser.atIdentifier, run_bind h.context_eq, run_bind h.kind]
  rfl

theorem tokenStart (h : At offset (w :: ws) c depth s e) :
    Parser.tokenStart s = (offset + byteLength w.margin, s) := Prod.ext h.stands.2.1.1 rfl

theorem tokenEnd (h : At offset (w :: ws) c depth s e) :
    Parser.tokenEnd s = (offset + w.size, s) := Prod.ext h.stands.2.1.2.1 rfl

theorem tokenValue (h : At offset (w :: ws) c depth s e) : Parser.tokenValue s = (w.value, s) :=
  Prod.ext h.stands.1.2.1 rfl

theorem previousEnd (h : At offset ws c depth s e) : Parser.previousEnd s = (offset, s) :=
  Prod.ext h.previous rfl

theorem flags (h : At offset ws c depth s e) : s.lexer.flags.IsQuiet := by
  cases ws with
  | nil => exact h.stands.quiet
  | cons w ws => exact h.stands.1.2.2.1

theorem afterLineBreak (h : At offset ws c depth s e) : Parser.afterLineBreak s = (false, s) := by
  rw [Parser.afterLineBreak, h.flags.noLineBreak]

theorem unterminated (h : At offset ws c depth s e) : Parser.unterminated s = (false, s) := by
  rw [Parser.unterminated, h.flags.ended]

theorem textLeft_ending (h : At offset ws c depth s e) :
    ∃ left, Parser.textLeft s = (left, s) ∧ ws.length + e.rest.length ≤ left.length := by
  refine ⟨s.lexer.first.rest, rfl, ?_⟩
  cases ws with
  | nil =>
    have all : s.lexer.first.rest = e.rest := congrArg Cursor.rest h.stands.first
    rw [all]
    exact Nat.le_of_eq (Nat.zero_add _)
  | cons w ws =>
    have few := h.stands.2.1.2.2
    rw [List.length_cons]
    omega

theorem textLeft (h : At offset ws c depth s e) :
    ∃ left, Parser.textLeft s = (left, s) ∧ ws.length ≤ left.length := by
  obtain ⟨left, run, enough⟩ := h.textLeft_ending
  exact ⟨left, run, Nat.le_trans (Nat.le_add_right _ _) enough⟩

/-! ### Moving on -/

theorem advance_to {s : ParserState} (stands : s.lexer.scan.Stands offset ws e)
    (here : s.lexer.here.offset = offset) (problems : s.problems = [])
    (pools : s.tree.pools.size = Shape.count) :
    ∃ s', Parser.advance s = ((), s') ∧ At offset ws s.context s.depth s' e ∧ s'.tree = s.tree := by
  have moved : At offset ws s.context s.depth
      { s with
        previousEnd := s.lexer.here.offset
        lexer := s.lexer.scan
        readings := s.lexer.scan :: s.readings } e :=
    ⟨stands, here, problems, rfl, rfl, pools⟩
  refine ⟨_, ?_, moved, rfl⟩
  have fine : tokenProblem? (headKind ws e) false = none := by
    have known : headKind ws e ≠ .unknown := by
      cases ws with
      | nil => exact stands.known
      | cons w ws => exact moved.stands.1.2.2.2
    unfold tokenProblem?
    split
    · next unknown => exact absurd unknown known
    · rfl
    · rfl
    · rfl
    · rfl
  rw [Parser.advance, run_bind (run_modify _ s), run_bind (run_recordReading _),
    run_bind (run_tokenStart _), run_bind (run_tokenEnd _)]
  change ((Parser.kind >>= fun k => _) : Parser Unit) _ = _
  rw [run_bind moved.kind, run_bind moved.unterminated, fine]
  rfl

theorem advance (h : At offset (w :: ws) c depth s e) :
    ∃ s', Parser.advance s = ((), s') ∧ At (offset + w.size) ws c depth s' e ∧ s'.tree = s.tree := by
  obtain ⟨s', run, moved, same⟩ := advance_to h.stands.2.2 h.stands.2.1.2.1 h.problems h.pools
  rw [h.context, h.depth] at moved
  exact ⟨s', run, moved, same⟩

theorem accept (h : At offset (w :: ws) c depth s e) :
    ∃ s', Parser.accept w.kind s = (true, s') ∧ At (offset + w.size) ws c depth s' e ∧
      s'.tree = s.tree := by
  obtain ⟨s', run, moved, same⟩ := h.advance
  refine ⟨s', ?_, moved, same⟩
  have here : (headKind (w :: ws) e == w.kind) = true := beq_self_eq_true _
  rw [Parser.accept, run_bind (h.isAt w.kind), here, if_pos rfl, run_bind run]
  rfl

theorem accept_other (h : At offset ws c depth s e) {k : TokenKind} (other : headKind ws e ≠ k) :
    Parser.accept k s = (false, s) := by
  have notHere : (headKind ws e == k) = false := beq_false_of_ne other
  rw [Parser.accept, run_bind (h.isAt k), notHere, if_neg Bool.false_ne_true]
  rfl

theorem expect (h : At offset (w :: ws) c depth s e) :
    ∃ s', Parser.expect w.kind s = ((), s') ∧ At (offset + w.size) ws c depth s' e ∧
      s'.tree = s.tree := by
  obtain ⟨s', run, moved, same⟩ := h.accept
  refine ⟨s', ?_, moved, same⟩
  rw [Parser.expect, run_bind run]
  rfl

theorem acceptMark {p : Punctuator} {blank : Bool} (h : At offset (markWord p blank :: ws) c depth s e) :
    ∃ s', Parser.acceptMark p s = (true, s') ∧
      At (offset + (markWord p blank).size) ws c depth s' e ∧ s'.tree = s.tree := h.accept

theorem acceptMark_other (h : At offset ws c depth s e) {p : Punctuator}
    (other : headKind ws e ≠ .mark p) : Parser.acceptMark p s = (false, s) := h.accept_other other

theorem expectMark {p : Punctuator} {blank : Bool} (h : At offset (markWord p blank :: ws) c depth s e) :
    ∃ s', Parser.expectMark p s = ((), s') ∧
      At (offset + (markWord p blank).size) ws c depth s' e ∧ s'.tree = s.tree := h.expect

/-! ### Looking ahead -/

theorem stands_kind {l : Lexer} (h : l.Stands offset ws e) :
    l.kind = headKind ws e ∧ l.flags.IsQuiet := by
  cases ws with
  | nil => exact ⟨h.kind, h.quiet⟩
  | cons w ws => exact ⟨h.1.1, h.1.2.2.1⟩

theorem peek (h : At offset (w :: ws) c depth s e) : Parser.peek s = ((headKind ws e, false), s) := by
  obtain ⟨kind, flags⟩ := stands_kind h.stands.2.2
  change ((s.lexer.scan.kind, s.lexer.scan.flags.precedingLineBreak), s) = _
  rw [kind, flags.noLineBreak]

theorem noArrow (h : At offset (w :: ws) c depth s e) (other : headKind ws e ≠ .mark .arrow) :
    lookAhead tokenThenArrow s = (false, s) := by
  obtain ⟨kind, -⟩ := stands_kind h.stands.2.2
  have notHere : (s.lexer.scan.kind == .mark .arrow) = false := by
    rw [kind]
    exact beq_false_of_ne other
  have act : tokenThenArrow s = (false, { s with lexer := s.lexer.scan }) := by
    rw [tokenThenArrow, Parser.skip, run_bind (run_modify _ s), atArrow]
    change (match (s.lexer.scan.kind == .mark .arrow, { s with lexer := s.lexer.scan }) with
      | (here, s') => (if here = true then _ else pure false : Parser Bool) s') = _
    rw [notHere]
    rfl
  change (match tokenThenArrow s with | (a, s') => (a, { s' with lexer := s.lexer })) = _
  rw [act]

/-! ### Nodes -/

theorem add (h : At offset ws c depth s e) {k : NodeKind} {r : Record}
    (shape : k.shape? = some r.shape) (flags start : Nat) :
    ∃ i s', addFlagged k flags start r s = (some i, s') ∧ At offset ws c depth s' e ∧
      s.tree.Extends s'.tree ∧ s'.tree.Is i k start offset r := by
  have is := Tree.add_is h.pools shape flags start offset
  have extends_ := Tree.add_extends s.tree k flags start offset r
  refine ⟨s.tree.size, { s with tree := (s.tree.add k flags start offset r).2 }, ?_, ?_, extends_,
    is⟩
  · rw [addFlagged, run_bind h.previousEnd]
    rfl
  · refine ⟨h.stands, h.previous, h.problems, h.context, h.depth, ?_⟩
    change (s.tree.add k flags start offset r).2.pools.size = _
    rw [Tree.add_pools, Array.size_modify, h.pools]

theorem addSpanned (h : At offset ws c depth s e) {k : NodeKind} {r : Record}
    (shape : k.shape? = some r.shape) (start stop : Nat) :
    ∃ i s', Parser.addSpanned k start stop r s = (some i, s') ∧ At offset ws c depth s' e ∧
      s.tree.Extends s'.tree ∧ s'.tree.Is i k start stop r := by
  have is := Tree.add_is h.pools shape 0 start stop
  have extends_ := Tree.add_extends s.tree k 0 start stop r
  refine ⟨s.tree.size, { s with tree := (s.tree.add k 0 start stop r).2 }, rfl, ?_, extends_, is⟩
  refine ⟨h.stands, h.previous, h.problems, h.context, h.depth, ?_⟩
  change (s.tree.add k 0 start stop r).2.pools.size = _
  rw [Tree.add_pools, Array.size_modify, h.pools]

end At

end Parser

end PathGuard
