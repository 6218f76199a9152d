import PathGuard.Proofs.Token.LineBreak
/-!
# Slices of the text

Three routines look at a part of the text by its offsets, and a fourth one keeps it: a line comment
and a mark are looked for in the text behind the cursor, the body of a block comment is searched for
ends of lines, and a number is copied. Here each of these parts is cut out of the whole text, which
gives nothing when a cut is out of range or falls inside a character. Whatever is looked up character
by character needs no such cut.

A cursor may stand past the end of the text or inside a character, as long as it was sought there.
Nothing is left to read at such a place, so that none of the four routines begins there.
-/

namespace PathGuard

/-! ### Places that were sought -/

/-- Whether what is left at a place is what the text holds from its offset on. -/
def Cursor.Seated (text : List Char) (c : Cursor) : Prop := c = Cursor.seek text c.offset

theorem dropBytes_eq_some {text rest : List Char} {n : Nat} (h : dropBytes text n = some rest) :
    ∃ before, text = before ++ rest ∧ byteLength before = n := by
  induction text, n using dropBytes.induct with
  | case1 text =>
    rw [dropBytes] at h
    exact ⟨[], Option.some.inj h, rfl⟩
  | case2 n => cases h
  | case3 c text n fits ih =>
    rw [dropBytes, if_pos fits] at h
    obtain ⟨before, split, size⟩ := ih h
    refine ⟨c :: before, by rw [split, List.cons_append], ?_⟩
    rw [byteLength, size]
    exact Nat.add_sub_cancel' fits
  | case4 c text n inside =>
    rw [dropBytes, if_neg inside] at h
    cases h

namespace Cursor

variable {text : List Char} {c c' : Cursor}

theorem reaches_append (offset : Nat) (before rest : List Char) :
    Reaches ⟨offset, before ++ rest⟩ ⟨offset + byteLength before, rest⟩ := by
  induction before generalizing offset with
  | nil => exact .refl _
  | cons ch before ih =>
    have later := ih (offset + ch.utf8Size)
    rw [Nat.add_assoc] at later
    exact .step later

theorem seated_seek (text : List Char) (offset : Nat) : (seek text offset).Seated text := rfl

theorem seated_start (text : List Char) : (start text).Seated text := by
  cases text <;> rfl

theorem Seated.dropBytes (h : c.Seated text) (more : c.rest ≠ []) :
    PathGuard.dropBytes text c.offset = some c.rest := by
  have rest : c.rest = (PathGuard.dropBytes text c.offset).getD [] := congrArg Cursor.rest h
  cases found : PathGuard.dropBytes text c.offset with
  | none => exact absurd (rest.trans (by rw [found]; rfl)) more
  | some r => rw [rest, found, Option.getD_some]

theorem Seated.reaches (h : c.Seated text) (more : c.rest ≠ []) : (start text).Reaches c := by
  obtain ⟨before, split, size⟩ := dropBytes_eq_some (h.dropBytes more)
  have later := reaches_append 0 before c.rest
  rw [← split, Nat.zero_add, size] at later
  exact later

theorem Seated.later (h : c.Seated text) (later : c.Reaches c') : c'.Seated text := by
  cases later with
  | refl => exact h
  | step later =>
    have here := h.reaches (List.cons_ne_nil _ _)
    exact (here.trans (.step later)).seek.symm

theorem Seated.nextByte (h : c.Seated text) : (c.nextByte text).Seated text := by
  unfold Cursor.nextByte
  split
  · next ch rest here =>
    split
    · next one =>
      have next : c.next = ⟨c.offset + 1, rest⟩ := by rw [next_of_cons here, one]
      exact next ▸ h.later (reaches_next c)
    · exact seated_seek text _
  · exact seated_seek text _

end Cursor

/-! ### Cuts -/

/-- A line comment; its end is looked for in the text from the cursor on. -/
def readLineComment? (text : List Char) (c : Cursor) : Option Piece :=
  (dropBytes text c.offset).map fun rest => readLineComment ⟨c.offset, rest⟩

def readMark? (text : List Char) (c : Cursor) : Option Piece :=
  (dropBytes text c.offset).map fun rest => readMark ⟨c.offset, rest⟩

def readBlockComment? (text : List Char) (c : Cursor) : Option Piece :=
  let body := c.skip 2
  let (stop, _, open_) := blockCommentEnd false body.offset body.rest
  let bodyStop := if open_ then stop.offset else stop.offset - 2
  (sliceBytes text body.offset bodyStop).map fun inside =>
    ⟨.trivia .blockComment, stop, "",
      { TokenFlags.none with
        precedingLineBreak := inside.any (Trivia.breaksAt .blockComment)
        unterminated := open_ }⟩

def readNumber? (text : List Char) (c : Cursor) : Option Piece :=
  let piece := readNumber c
  (sliceBytes text c.offset piece.stop.offset).map fun digits =>
    { piece with value := String.ofList (digits.filter (· != '_')) }

/-- The piece that begins at a place, by the cuts above. -/
def readPiece? (text : List Char) (c : Cursor) : Option Piece :=
  if c.offset = 0 && ['#', '!'].isPrefixOf c.rest then readLineComment? text c
  else
    match c.rest with
    | [] => some (.plain .endOfFile c)
    | ch :: rest =>
      if isLineTerminator ch then some (readNewLine c)
      else if isInlineBlank ch then some (readWhitespace c)
      else if ch = '/' && rest.head? = some '/' then readLineComment? text c
      else if ch = '/' && rest.head? = some '*' then readBlockComment? text c
      else if ch = '"' || ch = '\'' then some (readString ch c)
      else if ch = '\x60' then some (readTemplate true c.next)
      else if ch.isDigit || (ch = '.' && rest.head?.any Char.isDigit) then readNumber? text c
      else if ch = '#' then some (readPrivateIdentifier c)
      else if isIdentifierStart ch || atCodePointEscape c.rest then some (readIdentifier c)
      else readMark? text c

namespace Lexer

def skipPieces? (text : List Char) :
    (bound : List Char) → Cursor → TokenFlags → Option (Cursor × Piece × TokenFlags)
  | [], c, flags => (readPiece? text c).map fun piece => (c, piece, flags)
  | _ :: bound, c, flags =>
    (readPiece? text c).bind fun piece =>
      if piece.kind.isTrivia then skipPieces? text bound piece.stop (flags.union piece.flags)
      else some (c, piece, flags)

def scan? (l : Lexer) : Option Lexer :=
  let read :=
    if l.skipTrivia then skipPieces? l.text l.here.rest l.here .none
    else (readPiece? l.text l.here).map fun piece => (l.here, piece, .none)
  read.map fun (first, piece, skipped) =>
    { l with
      fullStart := l.here.offset
      first := first
      here := piece.stop
      kind := piece.kind
      value := piece.value
      flags := skipped.union piece.flags }

end Lexer

/-! ### No cut fails -/

section

variable {text : List Char} {c : Cursor}

theorem readLineComment?_eq (h : c.Seated text) (more : c.rest ≠ []) :
    readLineComment? text c = some (readLineComment c) := by
  rw [readLineComment?, h.dropBytes more]
  rfl

theorem readMark?_eq (h : c.Seated text) (more : c.rest ≠ []) :
    readMark? text c = some (readMark c) := by
  rw [readMark?, h.dropBytes more]
  rfl

theorem readNumber?_eq (h : c.Seated text) (more : c.rest ≠ [])
    (later : c.Reaches (readNumber c).stop) : readNumber? text c = some (readNumber c) := by
  rw [readNumber?, (h.reaches more).slice later]
  rfl

theorem blockCommentEnd_body (broken : Bool) (offset : Nat) (rest : List Char) :
    ∃ body, let (stop, breaks, open_) := blockCommentEnd broken offset rest
      rest = body ++ (if open_ then [] else ['*', '/']) ++ stop.rest ∧
        stop.offset = offset + byteLength body + (if open_ then 0 else 2) ∧
        breaks = (broken || body.any (Trivia.breaksAt .blockComment)) := by
  induction broken, offset, rest using blockCommentEnd.induct with
  | case1 broken offset => exact ⟨[], rfl, rfl, (Bool.or_false _).symm⟩
  | case2 broken offset rest => exact ⟨[], rfl, rfl, (Bool.or_false _).symm⟩
  | case3 broken offset ch rest other ih =>
    obtain ⟨body, split, there, breaks⟩ := ih
    refine ⟨ch :: body, ?_⟩
    rw [blockCommentEnd]
    · refine ⟨congrArg (ch :: ·) split, ?_, ?_⟩
      · rw [there, byteLength, Nat.add_assoc offset]
      · rw [breaks, List.any_cons]
        simp only [Trivia.breaksAt, Bool.or_assoc]
    · exact other

theorem readBlockComment?_eq (h : c.Seated text) (more : c.rest ≠ []) :
    readBlockComment? text c = some (readBlockComment c) := by
  have toBody : (Cursor.start text).Reaches (c.skip 2) :=
    (h.reaches more).trans (reaches_skip 2 c)
  unfold readBlockComment? readBlockComment
  dsimp only
  obtain ⟨body, found⟩ := blockCommentEnd_body false (c.skip 2).offset (c.skip 2).rest
  generalize blockCommentEnd false (c.skip 2).offset (c.skip 2).rest = ended at found ⊢
  obtain ⟨stop, breaks, open_⟩ := ended
  obtain ⟨split, there, broken⟩ := found
  have past : (c.skip 2).Reaches
      ⟨(c.skip 2).offset + byteLength body, (if open_ then [] else ['*', '/']) ++ stop.rest⟩ := by
    have later := Cursor.reaches_append (c.skip 2).offset body
      ((if open_ then [] else ['*', '/']) ++ stop.rest)
    rwa [← List.append_assoc, ← split] at later
  have bodyStop : (if open_ then stop.offset else stop.offset - 2) =
      (c.skip 2).offset + byteLength body := by
    cases open_
    · exact Nat.sub_eq_of_eq_add there
    · exact there
  have inside : (c.skip 2).textTo ((c.skip 2).offset + byteLength body) = body :=
    Cursor.textTo_of_split (d := ⟨_, _⟩) (split.trans (List.append_assoc ..)) rfl
  dsimp only
  rw [bodyStop, toBody.slice past, inside, broken, Bool.false_or]
  rfl

theorem ite_eq_some_ite {α : Type} {p : Prop} [Decidable p] {a b : Option α} {a' b' : α}
    (yes : p → a = some a') (no : ¬p → b = some b') :
    (if p then a else b) = some (if p then a' else b') := by
  by_cases h : p
  · rw [if_pos h, if_pos h, yes h]
  · rw [if_neg h, if_neg h, no h]

theorem readPiece?_eq (h : c.Seated text) : readPiece? text c = some (readPiece c) := by
  unfold readPiece? readPiece
  apply ite_eq_some_ite
  · intro shebang
    apply readLineComment?_eq h
    intro none_
    rw [none_] at shebang
    simp [List.isPrefixOf] at shebang
  · intro _
    cases here : c.rest with
    | nil => rfl
    | cons ch rest =>
      have more : c.rest ≠ [] := by
        rw [here]
        exact List.cons_ne_nil _ _
      apply ite_eq_some_ite (fun _ => rfl)
      intro _
      apply ite_eq_some_ite (fun _ => rfl)
      intro _
      apply ite_eq_some_ite (fun _ => readLineComment?_eq h more)
      intro _
      apply ite_eq_some_ite (fun _ => readBlockComment?_eq h more)
      intro _
      apply ite_eq_some_ite (fun _ => rfl)
      intro _
      apply ite_eq_some_ite (fun _ => rfl)
      intro _
      apply ite_eq_some_ite
      · intro digit
        rw [Bool.or_eq_true, Bool.and_eq_true, decide_eq_true_iff] at digit
        exact readNumber?_eq h more (passes_readNumber here (digit.imp id And.left)).reaches
      intro _
      apply ite_eq_some_ite (fun _ => rfl)
      intro _
      exact ite_eq_some_ite (fun _ => rfl) fun _ => readMark?_eq h more

namespace Lexer

theorem skipPieces?_eq (h : c.Seated text) (bound : List Char) (flags : TokenFlags) :
    skipPieces? text bound c flags = some (skipPieces bound c flags) := by
  induction bound generalizing c flags with
  | nil =>
    rw [skipPieces?, readPiece?_eq h]
    rfl
  | cons _ bound ih =>
    rw [skipPieces?, readPiece?_eq h, Option.bind_some, skipPieces]
    exact ite_eq_some_ite (fun _ => ih (h.later (reaches_readPiece c)) _) fun _ => rfl

/-- A lexer that goes on from a place which was sought makes no cut that fails. -/
theorem scan?_eq {l : Lexer} (h : l.here.Seated l.text) : l.scan? = some l.scan := by
  unfold scan? scan
  cases l.skipTrivia with
  | true =>
    rw [if_pos rfl, if_pos rfl, skipPieces?_eq h]
    rfl
  | false =>
    rw [if_neg Bool.false_ne_true, if_neg Bool.false_ne_true, readPiece?_eq h]
    rfl

end Lexer

end

end PathGuard
