import Mathlib.Algebra.GroupWithZero.Nat
import PathGuard.Token.Lexer
/-!
# Words of a text

A text that is written word by word, with a blank before some of the words, is read word by word:
each move of the lexer takes it to the next one.
-/

namespace PathGuard

/-- Whether no flag says that a line ends before a token, or that it misses its end. -/
structure TokenFlags.IsQuiet (flags : TokenFlags) : Prop where
  noLineBreak : flags.precedingLineBreak = false
  ended : flags.unterminated = false

theorem TokenFlags.isQuiet_none : TokenFlags.none.IsQuiet := ⟨rfl, rfl⟩

/-- A token as it is written: what the lexer says of it, whether a blank stands before it, and its
characters. -/
structure Word where
  kind : TokenKind
  value : String
  blank : Bool
  chars : List Char

namespace Word

def margin (w : Word) : List Char := if w.blank then [' '] else []

def size (w : Word) : Nat := byteLength w.margin + byteLength w.chars

end Word

def spelled (ws : List Word) : List Char := ws.flatMap fun w => w.margin ++ w.chars

/-- Whether a word is read as what it is before `rest`. -/
structure Word.Legible (w : Word) (rest : List Char) : Prop where
  token : w.kind.isTrivia = false
  known : w.kind ≠ .unknown
  first : ∃ c cs, w.chars = c :: cs ∧ isInlineBlank c = false
  reads : ∀ offset, ∃ flags : TokenFlags, flags.IsQuiet ∧ readPiece ⟨offset, w.chars ++ rest⟩ =
    ⟨w.kind, ⟨offset + byteLength w.chars, rest⟩, w.value, flags⟩

def Legible : List Word → Prop
  | [] => True
  | w :: ws => w.Legible (spelled ws) ∧ Legible ws

/-- What a text goes on with behind some words: the kind of the token there, and the characters from
that token on. -/
structure Ending where
  kind : TokenKind
  rest : List Char

def Ending.endOfText : Ending := ⟨.endOfFile, []⟩

structure Lexer.Ends (l : Lexer) (offset : Nat) (e : Ending) : Prop where
  kind : l.kind = e.kind
  quiet : l.flags.IsQuiet
  known : e.kind ≠ .unknown
  first : l.first = ⟨offset, e.rest⟩
  skips : l.skipTrivia = true

/-- Whether a lexer stands at the first of some words that follow `offset` bytes, and goes on to the
others and the ending behind them. -/
def Lexer.Stands (l : Lexer) (offset : Nat) (ws : List Word) (e : Ending := .endOfText) : Prop :=
  match ws with
  | [] => l.Ends offset e
  | w :: ws =>
    (l.kind = w.kind ∧ l.value = w.value ∧ l.flags.IsQuiet ∧ w.kind ≠ .unknown) ∧
      (l.first.offset = offset + byteLength w.margin ∧ l.here.offset = offset + w.size ∧
        ws.length + e.rest.length < l.first.rest.length) ∧ l.scan.Stands (offset + w.size) ws e

theorem byteLength_append (a b : List Char) : byteLength (a ++ b) = byteLength a + byteLength b := by
  induction a with
  | nil => rw [List.nil_append, byteLength, Nat.zero_add]
  | cons c a ih => rw [List.cons_append, byteLength, byteLength, ih, Nat.add_assoc]

theorem spelled_cons (w : Word) (ws : List Word) :
    spelled (w :: ws) = w.margin ++ (w.chars ++ spelled ws) := by
  rw [spelled, List.flatMap_cons, List.append_assoc]
  rfl

theorem spelled_append (ws ws' : List Word) : spelled (ws ++ ws') = spelled ws ++ spelled ws' :=
  List.flatMap_append

theorem byteLength_spelled (ws : List Word) :
    byteLength (spelled ws) = (ws.map Word.size).sum := by
  induction ws with
  | nil => rfl
  | cons w ws ih =>
    rw [spelled_cons, byteLength_append, byteLength_append, ih, List.map_cons, List.sum_cons,
      Word.size, Nat.add_assoc]

theorem length_le_spelled {ws : List Word} (legible : Legible ws) :
    ws.length ≤ (spelled ws).length := by
  induction ws with
  | nil => exact Nat.le_refl 0
  | cons w ws ih =>
    obtain ⟨c, cs, chars, -⟩ := legible.1.first
    have := ih legible.2
    rw [spelled_cons, chars]
    simp only [List.length_cons, List.length_append]
    omega

theorem readPiece_blank (offset : Nat) {c : Char} {cs : List Char} (other : isInlineBlank c = false) :
    readPiece ⟨offset, ' ' :: c :: cs⟩ = .plain (.trivia .whitespace) ⟨offset + 1, c :: cs⟩ := by
  have noComment : ['#', '!'].isPrefixOf (' ' :: c :: cs) = false := by
    simp [List.isPrefixOf]
  unfold readPiece
  rw [noComment, Bool.and_false, if_neg Bool.false_ne_true]
  have noEnd : isLineTerminator ' ' = false := by decide
  have blank : isInlineBlank ' ' = true := by decide
  simp only [noEnd, blank, Bool.false_eq_true, if_false, if_true]
  unfold readWhitespace Cursor.skipWhile
  simp only [Cursor.skipRun, blank, other, if_true, Bool.false_eq_true, if_false]
  rfl

theorem skipPieces_word {w : Word} {rest : List Char} (legible : w.Legible rest) (offset : Nat) :
    ∃ flags : TokenFlags, flags.IsQuiet ∧
      Lexer.skipPieces (w.margin ++ (w.chars ++ rest)) ⟨offset, w.margin ++ (w.chars ++ rest)⟩ .none =
        (⟨offset + byteLength w.margin, w.chars ++ rest⟩,
          ⟨w.kind, ⟨offset + w.size, rest⟩, w.value, flags⟩, .none) := by
  obtain ⟨c, cs, chars, other⟩ := legible.first
  have stop (bound : List Char) (offset : Nat) (more : bound ≠ []) :
      ∃ flags : TokenFlags, flags.IsQuiet ∧ Lexer.skipPieces bound ⟨offset, w.chars ++ rest⟩ .none =
        (⟨offset, w.chars ++ rest⟩, ⟨w.kind, ⟨offset + byteLength w.chars, rest⟩, w.value, flags⟩,
          .none) := by
    cases bound with
    | nil => exact absurd rfl more
    | cons b bound =>
      obtain ⟨flags, quiet, read⟩ := legible.reads offset
      refine ⟨flags, quiet, ?_⟩
      rw [Lexer.skipPieces, read]
      simp only [legible.token, Bool.false_eq_true, if_false]
  unfold Word.size Word.margin
  cases w.blank with
  | false =>
    simp only [Bool.false_eq_true, if_false, List.nil_append, byteLength, Nat.zero_add,
      Nat.add_zero]
    exact stop _ _ (by simp [chars])
  | true =>
    simp only [if_true, List.singleton_append]
    rw [Lexer.skipPieces, chars, List.cons_append, readPiece_blank offset other]
    have trivia : (Piece.plain (.trivia .whitespace) ⟨offset + 1, c :: (cs ++ rest)⟩).kind.isTrivia =
        true := rfl
    rw [trivia, if_pos rfl, ← List.cons_append, ← chars]
    have stopped := stop (w.chars ++ rest) (offset + 1) (by simp [chars])
    rw [Nat.add_assoc] at stopped
    exact stopped

namespace Lexer

variable {l : Lexer} {w : Word} {ws : List Word} {offset : Nat} {e : Ending} {rest : List Char}

theorem scan_word (skips : l.skipTrivia = true)
    (here : l.here = ⟨offset, w.margin ++ (w.chars ++ rest)⟩) (legible : w.Legible rest) :
    ∃ flags : TokenFlags, flags.IsQuiet ∧ l.scan = { l with
      fullStart := offset
      first := ⟨offset + byteLength w.margin, w.chars ++ rest⟩
      here := ⟨offset + w.size, rest⟩
      kind := w.kind
      value := w.value
      flags := flags } := by
  obtain ⟨flags, quiet, piece⟩ := skipPieces_word legible offset
  refine ⟨flags, quiet, ?_⟩
  unfold scan
  rw [if_pos skips, here]
  simp only [piece, TokenFlags.none_union]

theorem scan_stands_cons (skips : l.skipTrivia = true)
    (here : l.here = ⟨offset, w.margin ++ (w.chars ++ rest)⟩) (legible : w.Legible rest)
    (few : ws.length + e.rest.length ≤ rest.length)
    (behind : ∀ l' : Lexer, l'.skipTrivia = true → l'.here = ⟨offset + w.size, rest⟩ →
      l'.scan.Stands (offset + w.size) ws e) :
    l.scan.Stands offset (w :: ws) e := by
  obtain ⟨flags, quiet, scanned⟩ := scan_word skips here legible
  obtain ⟨c, cs, chars, -⟩ := legible.first
  refine ⟨?_, ?_, behind _ ?_ ?_⟩
  · rw [scanned]
    exact ⟨rfl, rfl, quiet, legible.known⟩
  · rw [scanned]
    refine ⟨rfl, rfl, ?_⟩
    simp only [chars, List.length_append, List.length_cons]
    omega
  · rw [scanned]
    exact skips
  · rw [scanned]

theorem scan_stands (skips : l.skipTrivia = true) (here : l.here = ⟨offset, spelled ws⟩)
    (legible : Legible ws) : l.scan.Stands offset ws := by
  induction ws generalizing l offset with
  | nil =>
    have ends : readPiece ⟨offset, []⟩ = .plain .endOfFile ⟨offset, []⟩ := by
      unfold readPiece
      cases h : decide (offset = 0) <;> simp [List.isPrefixOf]
    unfold Stands scan
    rw [if_pos skips, here]
    simp only [spelled, List.flatMap_nil, skipPieces, ends]
    exact ⟨rfl, TokenFlags.isQuiet_none, nofun, rfl, skips⟩
  | cons w ws ih =>
    rw [spelled_cons] at here
    exact scan_stands_cons skips here legible.1 (length_le_spelled legible.2)
      fun l' skips' here' => ih skips' here' legible.2

end Lexer

end PathGuard
