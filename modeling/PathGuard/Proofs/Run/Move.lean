import Mathlib.Logic.Relation
import PathGuard.Proofs.Span.Rules
import PathGuard.Proofs.Token.Unclosed
import PathGuard.Proofs.Tree.Nesting
/-!
# The moves of a parser

Whatever a parser does is made of a few moves: noting a problem at the current token, passing it,
reading it in another way, changing the context or the depth, and adding a node. So what every move
keeps holds in all states that a parser comes to.
-/

namespace PathGuard

namespace ParserState

/-- The state in which a token was read. -/
def read (s : ParserState) (l : Lexer) : ParserState :=
  { s with lexer := l, readings := l :: s.readings }

def readNext (s : ParserState) : ParserState :=
  { s with previousEnd := s.lexer.here.offset }.read s.lexer.scan

/-- Whether a parser stands in a text and its tree can take nodes. -/
structure Standing (text : List Char) (s : ParserState) : Prop where
  footing : s.Footing text
  pools : s.tree.pools.size = Shape.count

end ParserState

namespace Parser

def noteToken : Parser Unit := do
  let start ← tokenStart
  let length := (← tokenEnd) - start
  let k ← kind
  match tokenProblem? k (← unterminated) with
  | some cause => report start (if k = .unknown then max length 1 else length) cause
  | none => pure ()

theorem run_advance (s : ParserState) :
    advance s = noteToken s.readNext := rfl

theorem run_rescan (change : Lexer → Lexer) (cause : SyntaxError) (s : ParserState) :
    (rescan change cause s).2 = if (change s.lexer).flags.unterminated
      then (reportHere cause (s.read (change s.lexer))).2 else s.read (change s.lexer) := by
  change ((if (change s.lexer).flags.unterminated then reportHere cause else pure () : Parser Unit)
    (s.read (change s.lexer))).2 = _
  split <;> rfl

theorem run_reportHere (cause : SyntaxError) (s : ParserState) :
    reportHere cause s =
      report s.lexer.first.offset (s.lexer.here.offset - s.lexer.first.offset) cause s := rfl

theorem noteToken_none {s : ParserState}
    (fine : tokenProblem? s.lexer.kind s.lexer.flags.unterminated = none) :
    (noteToken s).2 = s := by
  change ((match tokenProblem? s.lexer.kind s.lexer.flags.unterminated with
    | some cause => report _ _ cause
    | none => pure () : Parser Unit) s).2 = s
  rw [fine]
  rfl

theorem noteToken_some {s : ParserState} {cause : SyntaxError}
    (wrong : tokenProblem? s.lexer.kind s.lexer.flags.unterminated = some cause) :
    noteToken s = report s.lexer.first.offset
      (if s.lexer.kind = .unknown then max (s.lexer.here.offset - s.lexer.first.offset) 1
        else s.lexer.here.offset - s.lexer.first.offset) cause s := by
  change (match tokenProblem? s.lexer.kind s.lexer.flags.unterminated with
    | some cause => report s.lexer.first.offset _ cause
    | none => pure () : Parser Unit) s = _
  rw [wrong]

theorem noteToken_cases {text : List Char} {s : ParserState} (footing : s.Footing text) :
    (tokenProblem? s.lexer.kind s.lexer.flags.unterminated = none ∧ (noteToken s).2 = s) ∨
      ∃ length cause, s.lexer.first.offset + length = s.lexer.here.offset ∧
        (noteToken s).2 = (report s.lexer.first.offset length cause s).2 := by
  have before := footing.sits.here.offset_le
  cases found : tokenProblem? s.lexer.kind s.lexer.flags.unterminated with
  | none => exact .inl ⟨rfl, noteToken_none found⟩
  | some cause =>
    refine .inr ⟨_, cause, ?_, congrArg Prod.snd (noteToken_some found)⟩
    split
    · next unknown =>
      have more := (footing.sits.more (by rw [unknown]; exact nofun)).offset_lt
      omega
    · omega

end Parser

namespace ParserState

open PathGuard.Parser

variable {text : List Char} {s s' s'' : ParserState}

/-- What a parser may do. The closing brace of a substitution and a slash may be read in another way.
No node is that of the whole text, and none makes a chain too long. -/
inductive Move : ParserState → ParserState → Prop where
  | report {s : ParserState} (cause : SyntaxError) : Move s (reportHere cause s).2
  | advance {s : ParserState} : Move s (Parser.advance s).2
  | template {s : ParserState} (brace : s.lexer.kind = .mark .closeBrace) :
      Move s (rescan Lexer.rescanTemplate .unterminatedTemplate s).2
  | slash {s : ParserState} (mark : s.lexer.kind = .mark .slash ∨ s.lexer.kind = .mark .slashEquals) :
      Move s (rescan Lexer.rescanSlash .unterminatedRegularExpression s).2
  | context {s : ParserState} (c : Context) : Move s { s with context := c }
  | depth {s : ParserState} (d deepest : Nat) : Move s { s with depth := d, deepest := deepest }
  | token {s : ParserState} {k : NodeKind} (start stop : Nat) (ordinary : k.isOrdinary = true) :
      Move s { s with tree := (s.tree.addToken k start stop).2 }
  | node {s : ParserState} {k : NodeKind} {r : Record} (flags start stop : Nat)
      (inner : k ≠ .sourceFile) (admits : s.tree.Admits k r) :
      Move s { s with tree := (s.tree.add k flags start stop r).2 }

abbrev Moves : ParserState → ParserState → Prop := Relation.ReflTransGen Move

/-! ### Going forward -/

/-- Whether a parser stands in a later state, where no more of the text is left and the tree has all
nodes that it had. -/
structure Forward (text : List Char) (s s' : ParserState) : Prop where
  standing : s'.Standing text
  first : s.lexer.first.offset ≤ s'.lexer.first.offset
  left : s'.lexer.first.rest.length ≤ s.lexer.first.rest.length
  tree : s.tree.Extends s'.tree

theorem Forward.refl (h : s.Standing text) : Forward text s s :=
  ⟨h, Nat.le_refl _, Nat.le_refl _, .refl _⟩

theorem Forward.trans (h : Forward text s s') (h' : Forward text s' s'') : Forward text s s'' where
  standing := h'.standing
  first := Nat.le_trans h.first h'.first
  left := Nat.le_trans h'.left h.left
  tree := h.tree.trans h'.tree

theorem Onward.forward (h : Onward text s s') (standing : s.Standing text) : Forward text s s' where
  standing := ⟨h.footing, h.tree ▸ standing.pools⟩
  first := h.first
  left := h.left
  tree := h.tree ▸ .refl _

theorem Standing.readNext (h : s.Standing text) : Forward text s s.readNext := by
  have moved := onward_behindToken h.footing
  exact (moved.trans (stays_recordReading _ moved.footing).1).forward h

theorem Standing.read (h : s.Standing text) {l : Lexer} (sits : l.Sits text)
    (first : l.first = s.lexer.first) : Forward text s (s.read l) where
  standing := {
    footing := {
      h.footing with
      sits := sits
      behind := by rw [ParserState.read, first]; exact h.footing.behind }
    pools := h.pools }
  first := Nat.le_of_eq (by rw [ParserState.read, first])
  left := Nat.le_of_eq (by rw [ParserState.read, first])
  tree := .refl _

theorem Standing.rescan (h : s.Standing text) {change : Lexer → Lexer} (cause : SyntaxError)
    (sits : (change s.lexer).Sits text) (first : (change s.lexer).first = s.lexer.first) :
    Forward text s (Parser.rescan change cause s).2 := by
  have later := h.read sits first
  rw [run_rescan]
  split
  · exact later.trans ((stays_reportHere cause _ later.standing.footing).1.forward later.standing)
  · exact later

theorem Standing.grow (h : s.Standing text) {t : Tree} (grown : s.tree.Extends t)
    (pools : t.pools.size = Shape.count) : Forward text s { s with tree := t } where
  standing :=
    ⟨⟨h.footing.sits, h.footing.boundary, h.footing.behind, h.footing.noted⟩, pools⟩
  first := Nat.le_refl _
  left := Nat.le_refl _
  tree := grown

theorem Standing.offset_lt (h : s.Standing text) (h' : s'.Standing text)
    (shorter : s'.lexer.first.rest.length < s.lexer.first.rest.length) :
    s.lexer.first.offset < s'.lexer.first.offset := by
  obtain ⟨cs, split, there⟩ := h.footing.sits.first.split
  obtain ⟨cs', split', there'⟩ := h'.footing.sits.first.split
  have whole : cs ++ s.lexer.first.rest = cs' ++ s'.lexer.first.rest := split.symm.trans split'
  have lengths := congrArg List.length whole
  rw [List.length_append, List.length_append] at lengths
  obtain ⟨more, rfl⟩ : cs <+: cs' :=
    List.prefix_of_prefix_length_le ⟨_, whole⟩ ⟨_, rfl⟩ (by omega)
  rw [List.length_append] at lengths
  cases more with
  | nil =>
    rw [List.length_nil] at lengths
    omega
  | cons ch more =>
    have positive := ch.utf8Size_pos
    rw [byteLength_append, byteLength] at there'
    omega

theorem rescanSlash_first (l : Lexer) : l.rescanSlash.first = l.first := by
  unfold Lexer.rescanSlash
  split <;> rfl

theorem Move.forward (m : Move s s') (h : s.Standing text) : Forward text s s' := by
  cases m with
  | report cause => exact (stays_reportHere cause s h.footing).1.forward h
  | advance => exact (moves_advance h.footing).1.forward h
  | template brace => exact h.rescan _ (h.footing.sits.rescanTemplate brace) rfl
  | slash mark => exact h.rescan _ h.footing.sits.rescanSlash (rescanSlash_first _)
  | context c =>
    have footing := h.footing
    exact ⟨⟨⟨footing.sits, footing.boundary, footing.behind, footing.noted⟩, h.pools⟩,
      Nat.le_refl _, Nat.le_refl _, .refl _⟩
  | depth d deepest =>
    have footing := h.footing
    exact ⟨⟨⟨footing.sits, footing.boundary, footing.behind, footing.noted⟩, h.pools⟩,
      Nat.le_refl _, Nat.le_refl _, .refl _⟩
  | token start stop ordinary => exact h.grow (Tree.addToken_extends ..) h.pools
  | node flags start stop inner admits =>
    exact h.grow (Tree.add_extends ..) (Tree.add_pools_size h.pools)

theorem Moves.forward (m : Moves s s') (h : s.Standing text) : Forward text s s' := by
  induction m with
  | refl => exact .refl h
  | tail _ last ih => exact ih.trans (last.forward ih.standing)

theorem Move.grows (m : Move s s') :
    s'.tree = s.tree ∨
      (∃ k start stop, k.isOrdinary = true ∧ s'.tree = (s.tree.addToken k start stop).2) ∨
      ∃ k flags start stop r, k ≠ .sourceFile ∧ s.tree.Admits k r ∧
        s'.tree = (s.tree.add k flags start stop r).2 := by
  cases m with
  | report cause => exact .inl (Idle.moving.reportHere cause s).1
  | advance => exact .inl (Idle.moving.advance s).1
  | template brace => exact .inl (idle_rescan _ _ s).1
  | slash mark => exact .inl (idle_rescan _ _ s).1
  | context c => exact .inl rfl
  | depth d deepest => exact .inl rfl
  | token start stop ordinary => exact .inr (.inl ⟨_, _, _, ordinary, rfl⟩)
  | node flags start stop inner admits => exact .inr (.inr ⟨_, _, _, _, _, inner, admits, rfl⟩)

theorem Moves.keeps {Inv : ParserState → Prop}
    (step : ∀ s s', Standing text s → Inv s → Move s s' → Inv s') (m : Moves s s')
    (h : s.Standing text) (inv : Inv s) : Inv s' := by
  induction m with
  | refl => exact inv
  | tail before last ih => exact step _ _ (Moves.forward before h).standing ih last

end ParserState

end PathGuard
