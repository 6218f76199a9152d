import PathGuard.Proofs.Token.Forward
import PathGuard.Proofs.Token.Spelling
/-!
# Identifiers as they are written

An identifier may be written with any letters and with escapes. What the lexer takes for one when it
stands alone is taken for the same one in another place of a text, as long as nothing stands behind
it that a name or an escape goes on with.
-/

namespace PathGuard

/-- A text that is one identifier to the lexer, and no word of the language. -/
structure Identifier where
  chars : List Char
  plain : (readPiece (.start chars)).kind = .identifier
  whole : (readPiece (.start chars)).stop.rest = []

namespace Identifier

def text (x : Identifier) : String := (readPiece (.start x.chars)).value

def word (x : Identifier) (blank : Bool) : Word := ⟨.identifier, x.text, blank, x.chars⟩

end Identifier

theorem AsciiName.readPiece_alone {n : AsciiName} (free : n.IsFree) :
    ∃ flags, readPiece (.start n.chars) =
      ⟨.identifier, ⟨0 + byteLength n.chars, []⟩, n.text, flags⟩ := by
  obtain ⟨flags, -, read⟩ := (legible_name n false (nofun : EndsName [])).reads 0
  rw [List.append_nil, AsciiName.word, free.kind_eq] at read
  exact ⟨flags, read⟩

def AsciiName.identifier (n : AsciiName) (free : n.IsFree) : Identifier where
  chars := n.chars
  plain := by
    obtain ⟨flags, read⟩ := readPiece_alone free
    rw [read]
  whole := by
    obtain ⟨flags, read⟩ := readPiece_alone free
    rw [read]

/-! ### The same characters in another place -/

/-- Whether neither a name nor an escape goes on with a character. A brace that closes an escape goes
on with it only where one is open. -/
def endsIdentifier (c : Char) : Bool :=
  !(isIdentifierPart c || c == '\\' || (hexValue? c).isSome || c == '\x7b')

theorem endsIdentifier_spec {c : Char} (ends : endsIdentifier c = true) :
    isIdentifierPart c = false ∧ c ≠ '\\' ∧ hexValue? c = none ∧ c ≠ '\x7b' := by
  simp only [endsIdentifier, Bool.not_eq_true', Bool.or_eq_false_iff, beq_eq_false_iff_ne,
    Option.isSome_eq_false_iff, Option.isNone_iff_eq_none] at ends
  obtain ⟨⟨⟨other, noEscape⟩, noDigit⟩, noOpening⟩ := ends
  exact ⟨other, noEscape, noDigit, noOpening⟩

def Cursor.moved (shift : Nat) (behind : List Char) (c : Cursor) : Cursor :=
  ⟨shift + c.offset, c.rest ++ behind⟩

variable {shift : Nat} {stop : Char} {behind : List Char} {c : Cursor}

theorem Cursor.moved_next (more : c.rest ≠ []) :
    (c.moved shift behind).next = c.next.moved shift behind := by
  obtain ⟨ch, rest, here⟩ := List.exists_cons_of_ne_nil more
  have here' : (c.moved shift behind).rest = ch :: (rest ++ behind) := by
    rw [moved, here, List.cons_append]
  rw [next_of_cons here, next_of_cons here', moved, moved, Nat.add_assoc]

theorem Cursor.moved_peek (more : c.rest ≠ []) : (c.moved shift behind).peek = c.peek := by
  obtain ⟨ch, rest, here⟩ := List.exists_cons_of_ne_nil more
  rw [peek, peek, moved, here]
  rfl

theorem Cursor.moved_peek_nil (none_ : c.rest = []) :
    (c.moved shift (stop :: behind)).peek = some stop := by
  rw [peek, moved, none_]
  rfl

theorem readHex_moved (ends : endsIdentifier stop = true) (most count value : Nat) (c : Cursor) :
    readHex most count value (c.moved shift (stop :: behind)) =
      ((readHex most count value c).1, (readHex most count value c).2.1,
        (readHex most count value c).2.2.moved shift (stop :: behind)) := by
  induction most generalizing count value c with
  | zero => rfl
  | succ most ih =>
    rw [readHex, readHex]
    by_cases none_ : c.rest = []
    · have peek : c.peek = none := by rw [Cursor.peek, none_, List.head?_nil]
      rw [Cursor.moved_peek_nil none_, peek, Option.bind_some, (endsIdentifier_spec ends).2.2.1]
      rfl
    · rw [Cursor.moved_peek none_]
      cases c.peek.bind hexValue? with
      | none => rfl
      | some digit =>
        dsimp only
        rw [Cursor.moved_next none_, ih]

theorem readHexNumber_moved (ends : endsIdentifier stop = true) (least most : Nat) (c : Cursor) :
    readHexNumber least most (c.moved shift (stop :: behind)) =
      ((readHexNumber least most c).1, (readHexNumber least most c).2.moved shift (stop :: behind)) := by
  rw [readHexNumber, readHex_moved ends]
  rfl

/-- An escape with an open brace would go on with one that closes it; any other is read alike. -/
theorem readCodePoint_moved (ends : endsIdentifier stop = true) {c : Cursor}
    (closed : (readCodePoint c).unterminated = false) :
    readCodePoint (c.moved shift (stop :: behind)) =
      { readCodePoint c with stop := (readCodePoint c).stop.moved shift (stop :: behind) } := by
  obtain ⟨-, -, -, noOpening⟩ := endsIdentifier_spec ends
  by_cases opens : c.peek = some '\x7b'
  · have more : c.rest ≠ [] := fun none_ => by
      rw [Cursor.peek, none_] at opens
      cases opens
    have opens' : (c.moved shift (stop :: behind)).peek = some '\x7b' := by
      rwa [Cursor.moved_peek more]
    rw [readCodePoint, if_pos opens] at closed
    have closes : ((readHexNumber 1 6 c.next).1.isSome &&
        (readHexNumber 1 6 c.next).2.peek = some '\x7d') = true :=
      Decidable.byContradiction fun open_ => by
        simp only [if_neg open_] at closed
        cases closed
    have left : (readHexNumber 1 6 c.next).2.rest ≠ [] := fun none_ => by
      rw [Cursor.peek, none_] at closes
      simp at closes
    rw [readCodePoint, readCodePoint, if_pos opens, if_pos opens', Cursor.moved_next more,
      readHexNumber_moved ends]
    simp only [Cursor.moved_peek left, if_pos closes, Cursor.moved_next left]
  · have opens' : (c.moved shift (stop :: behind)).peek ≠ some '\x7b' := by
      by_cases none_ : c.rest = []
      · rw [Cursor.moved_peek_nil none_]
        simp [noOpening]
      · rwa [Cursor.moved_peek none_]
    rw [readCodePoint, readCodePoint, if_neg opens, if_neg opens', readHexNumber_moved ends]

theorem readCodePoint_closed {c : Cursor} {ch : Char} (value : (readCodePoint c).value = some ch) :
    (readCodePoint c).unterminated = false := by
  unfold readCodePoint at value ⊢
  by_cases opens : c.peek = some '\x7b'
  · simp only [if_pos opens] at value ⊢
    split at value
    · next closes => rw [if_pos closes]
    · cases value
  · rw [if_neg opens]

theorem head?_behind_eq_u (other : isIdentifierPart stop = false) {rest : List Char} :
    (rest ++ stop :: behind).head? = some 'u' ↔ rest.head? = some 'u' := by
  cases rest with
  | nil =>
    have notU : stop ≠ 'u' := fun here => by
      rw [here] at other
      exact absurd other (by decide)
    simp [notU]
  | cons u rest => rfl

theorem moved_skip_two {c : Cursor} (first : c.rest ≠ []) (second : c.next.rest ≠ []) :
    (c.moved shift (stop :: behind)).skip 2 = (c.skip 2).moved shift (stop :: behind) :=
  calc (c.moved shift (stop :: behind)).next.next
    _ = (c.next.moved shift (stop :: behind)).next := by rw [Cursor.moved_next first]
    _ = c.next.next.moved shift (stop :: behind) := Cursor.moved_next second

/-- The bound does not matter as long as it is no shorter than the text. -/
theorem readNameChars_moved (ends : endsIdentifier stop = true) (bound bound' : List Char)
    (c : Cursor) (enough : c.rest.length ≤ bound.length) (enough' : c.rest.length < bound'.length)
    (closed : (readNameChars bound c).unterminated = false) :
    readNameChars bound' (c.moved shift (stop :: behind)) =
      { readNameChars bound c with
        stop := (readNameChars bound c).stop.moved shift (stop :: behind) } := by
  obtain ⟨other, noEscape, -⟩ := endsIdentifier_spec ends
  induction bound' generalizing bound c with
  | nil => cases enough'
  | cons b' bound' ih =>
    by_cases none_ : c.rest = []
    · have rest : (c.moved shift (stop :: behind)).rest = stop :: behind := by
        rw [Cursor.moved, none_, List.nil_append]
      have read : readNameChars bound c = ⟨[], c, false, false⟩ := by
        cases bound with
        | nil => rfl
        | cons b bound => rw [readNameChars, none_]
      rw [read, readNameChars, rest]
      simp only [other, noEscape, Bool.false_eq_true, if_false, decide_false, Bool.false_and]
    obtain ⟨ch, rest, here⟩ := List.exists_cons_of_ne_nil none_
    have moved : (c.moved shift (stop :: behind)).rest = ch :: (rest ++ stop :: behind) := by
      rw [Cursor.moved, here, List.cons_append]
    cases bound with
    | nil =>
      rw [here] at enough
      cases enough
    | cons b bound =>
      have shorter : c.next.rest.length < c.rest.length := by
        rw [Cursor.next_of_cons here, here]
        exact Nat.lt_succ_self _
      rw [List.length_cons] at enough enough'
      rw [readNameChars, here] at closed
      rw [readNameChars, readNameChars, moved, here]
      dsimp only at closed ⊢
      by_cases part : isIdentifierPart ch = true
      · rw [if_pos part] at closed
        rw [if_pos part, if_pos part, Cursor.moved_next none_,
          ih bound c.next (by omega) (by omega) closed]
        rfl
      rw [if_neg part] at closed
      rw [if_neg part, if_neg part]
      simp only [head?_behind_eq_u other]
      split
      · next escapes =>
        rw [if_pos escapes] at closed
        rw [Bool.and_eq_true, decide_eq_true_iff, decide_eq_true_iff] at escapes
        -- the name goes on with an escape, which is read alike in both texts when it is closed
        have more : c.next.rest ≠ [] := fun ends => by
          rw [Cursor.next_of_cons here] at ends
          rw [show rest = [] from ends] at escapes
          cases escapes.2
        have left : (readCodePoint (c.skip 2)).stop.rest.length ≤ c.next.rest.length :=
          Nat.le_trans (reaches_readCodePoint (c.skip 2)).length_le (Cursor.length_next_le c.next)
        rw [moved_skip_two none_ more]
        cases value : (readCodePoint (c.skip 2)).value with
        | none =>
          simp only [value] at closed
          rw [readCodePoint_moved ends closed]
          simp only [value]
        | some ch =>
          simp only [value] at closed
          rw [readCodePoint_moved ends (readCodePoint_closed value)]
          simp only [value]
          rw [ih bound _ (by omega) (by omega) closed]
          rfl
      · rfl

theorem readIdentifier_moved (ends : endsIdentifier stop = true) (c : Cursor)
    (closed : (readName c).unterminated = false) :
    readIdentifier (c.moved shift (stop :: behind)) =
      { readIdentifier c with stop := (readIdentifier c).stop.moved shift (stop :: behind) } := by
  have name : readName (c.moved shift (stop :: behind)) =
      { readName c with stop := (readName c).stop.moved shift (stop :: behind) } := by
    refine readNameChars_moved ends _ _ c (Nat.le_refl _) ?_ closed
    rw [Cursor.moved, List.length_append]
    exact Nat.lt_add_of_pos_right (Nat.succ_pos _)
  unfold readIdentifier
  rw [name]
  rfl

/-! ### Where an identifier begins -/

structure BeginsName (ch : Char) (rest : List Char) : Prop where
  noLine : isLineTerminator ch = false
  noBlank : isInlineBlank ch = false
  noMark : ch ≠ '"' ∧ ch ≠ '\'' ∧ ch ≠ '\x60' ∧ ch ≠ '#'
  noDigit : ch.isDigit = false
  starts : isIdentifierStart ch = true ∨ atCodePointEscape (ch :: rest) = true

theorem BeginsName.notSlash {ch : Char} {rest : List Char} (begins : BeginsName ch rest) :
    ch ≠ '/' ∧ ch ≠ '.' := by
  constructor
  · rintro rfl
    rcases begins.starts with starts | escape
    · exact absurd starts (by decide +kernel)
    · cases escape
  · rintro rfl
    rcases begins.starts with starts | escape
    · exact absurd starts (by decide +kernel)
    · cases escape

theorem BeginsName.read {ch : Char} {rest : List Char} (begins : BeginsName ch rest) (offset : Nat) :
    readPiece ⟨offset, ch :: rest⟩ = readIdentifier ⟨offset, ch :: rest⟩ := by
  obtain ⟨slash, dot⟩ := begins.notSlash
  obtain ⟨quote, single, tick, hash⟩ := begins.noMark
  have noComment : ['#', '!'].isPrefixOf (ch :: rest) = false := by
    simp [List.isPrefixOf, hash.symm]
  have starts : (isIdentifierStart ch || atCodePointEscape (ch :: rest)) = true := by
    rw [Bool.or_eq_true]
    exact begins.starts
  unfold readPiece
  simp only [noComment, begins.noLine, begins.noBlank, slash, quote, single, tick, begins.noDigit,
    dot, hash, starts, Bool.and_false, Bool.false_eq_true, if_false, decide_false, Bool.false_and,
    Bool.or_self, if_true]

theorem beginsName {c : Cursor} (plain : (readPiece c).kind = .identifier) :
    ∃ ch rest, c.rest = ch :: rest ∧ BeginsName ch rest := by
  unfold readPiece at plain
  split at plain
  · cases plain
  cases here : c.rest with
  | nil =>
    simp only [here] at plain
    cases plain
  | cons ch rest =>
    simp only [here] at plain
    refine ⟨ch, rest, rfl, ?_⟩
    split at plain
    · cases plain
    next line =>
    split at plain
    · cases plain
    next blank =>
    split at plain
    · cases plain
    split at plain
    · cases plain
    split at plain
    · cases plain
    next quote =>
    split at plain
    · cases plain
    next tick =>
    split at plain
    · cases plain
    next digit =>
    split at plain
    · unfold readPrivateIdentifier at plain
      split at plain <;> cases plain
    next hash =>
    split at plain
    · next starts =>
      simp only [Bool.or_eq_true, decide_eq_true_iff, not_or] at quote digit
      exact ⟨eq_false_of_ne_true line, eq_false_of_ne_true blank,
        ⟨quote.1, quote.2, tick, hash⟩, eq_false_of_ne_true digit.1, Bool.or_eq_true_iff.1 starts⟩
    · unfold readMark at plain
      split at plain <;> cases plain

/-! ### An identifier before something else -/

/-- An escape that misses its end leaves its opening brace unread. -/
theorem readCodePoint_unterminated {c : Cursor} (open_ : (readCodePoint c).unterminated = true) :
    (readCodePoint c).stop.rest ≠ [] := by
  unfold readCodePoint at open_ ⊢
  by_cases opens : c.peek = some '\x7b'
  · simp only [if_pos opens] at open_ ⊢
    by_cases closes : ((readHexNumber 1 6 c.next).1.isSome &&
        (readHexNumber 1 6 c.next).2.peek = some '\x7d') = true
    · rw [if_pos closes] at open_
      cases open_
    · rw [if_neg closes]
      intro none_
      rw [Cursor.peek, none_] at opens
      cases opens
  · rw [if_neg opens] at open_
    cases open_

theorem readNameChars_unterminated {bound : List Char} {c : Cursor}
    (open_ : (readNameChars bound c).unterminated = true) :
    (readNameChars bound c).stop.rest ≠ [] := by
  induction bound generalizing c with
  | nil => cases open_
  | cons b bound ih =>
    rw [readNameChars] at open_ ⊢
    cases here : c.rest with
    | nil =>
      rw [here] at open_
      cases open_
    | cons ch rest =>
      simp only [here] at open_ ⊢
      split at open_
      · next part =>
        rw [if_pos part]
        exact ih open_
      next part =>
      rw [if_neg part]
      split at open_
      · next escapes =>
        rw [if_pos escapes]
        cases value : (readCodePoint (c.skip 2)).value with
        | none =>
          simp only [value] at open_ ⊢
          exact readCodePoint_unterminated open_
        | some ch =>
          simp only [value] at open_ ⊢
          exact ih open_
      · cases open_

theorem Identifier.legible (x : Identifier) (blank : Bool) {stop : Char}
    (ends : endsIdentifier stop = true) (behind : List Char) :
    (x.word blank).Legible (stop :: behind) := by
  obtain ⟨ch, rest, here, begins⟩ := beginsName x.plain
  have chars : x.chars = ch :: rest := here
  have read : readPiece (.start x.chars) = readIdentifier (.start x.chars) := by
    rw [chars]
    exact begins.read 0
  refine ⟨rfl, nofun, ⟨ch, rest, chars, begins.noBlank⟩, fun offset => ?_⟩
  -- what stands behind the name does not change how its piece begins
  have longer : BeginsName ch (rest ++ stop :: behind) :=
    { begins with
      starts := begins.starts.imp_right fun escape => by
        rw [atCodePointEscape, List.isPrefixOf_iff_prefix] at escape ⊢
        exact escape.trans (List.prefix_append (ch :: rest) (stop :: behind)) }
  have place : Cursor.mk offset (x.chars ++ stop :: behind) =
      (Cursor.start x.chars).moved offset (stop :: behind) := rfl
  have closed : (readName (.start x.chars)).unterminated = false := by
    refine eq_false_of_ne_true fun open_ => ?_
    have whole := x.whole
    rw [read] at whole
    exact readNameChars_unterminated open_ whole
  have moved : readPiece ⟨offset, x.chars ++ stop :: behind⟩ =
      { readPiece (.start x.chars) with
        stop := (readPiece (.start x.chars)).stop.moved offset (stop :: behind) } :=
    calc readPiece ⟨offset, x.chars ++ stop :: behind⟩
      _ = readIdentifier ⟨offset, x.chars ++ stop :: behind⟩ := by
        rw [chars]
        exact longer.read offset
      _ = _ := by rw [place, readIdentifier_moved ends _ closed, read]
  -- as a text of its own, the name has nothing left behind it
  have end_ : (readPiece (.start x.chars)).stop = ⟨byteLength x.chars, []⟩ := by
    obtain ⟨taken, split, far⟩ := (reaches_readPiece (.start x.chars)).split
    have whole := x.whole
    generalize (readPiece (.start x.chars)).stop = last at split far whole
    obtain ⟨offset, rest⟩ := last
    obtain rfl : rest = [] := whole
    rw [List.append_nil] at split
    rw [Cursor.start] at split far
    dsimp only at split far
    rw [far, split, Nat.zero_add]
  refine ⟨(readPiece (.start x.chars)).flags, ⟨?_, ?_⟩, ?_⟩
  · rw [read]
    rfl
  · rw [read]
    exact closed
  · calc readPiece ⟨offset, x.chars ++ stop :: behind⟩
      _ = _ := moved
      _ = _ := by
        dsimp only
        rw [end_, x.plain]
        rfl

end PathGuard
