import PathGuard.Proofs.Token.Trivia
/-!
# Ends of lines before tokens

A token says whether a line ends in the trivia before it. Outside of comments all four line
terminators count; within comments a line feed and a carriage return do, and the separators of lines
and of paragraphs do not. So a comment that holds a separator may hide the end of a line, and a line
comment goes on behind one.
-/

namespace PathGuard

namespace Trivia

/-- Whether a character in trivia of a kind counts as the end of a line. -/
def breaksAt : Trivia → Char → Bool
  | .lineComment, ch | .blockComment, ch => ch == '\n' || ch == '\r'
  | .newLine, ch | .whitespace, ch => isLineTerminator ch

theorem isLineTerminator_of_breaksAt {k : Trivia} {ch : Char} (breaks : k.breaksAt ch = true) :
    isLineTerminator ch = true := by
  cases k with
  | lineComment | blockComment =>
    rw [breaksAt] at breaks
    rw [isLineTerminator, breaks]
    rfl
  | newLine | whitespace => exact breaks

theorem breaksAt_of_isLineTerminator {k : Trivia} {ch : Char} (terminates : isLineTerminator ch = true)
    (noSeparator : k = .lineComment ∨ k = .blockComment → ch ≠ '\u2028' ∧ ch ≠ '\u2029') :
    k.breaksAt ch = true := by
  cases k with
  | lineComment =>
    obtain ⟨noLine, noParagraph⟩ := noSeparator (.inl rfl)
    simpa [breaksAt, isLineTerminator, noLine, noParagraph] using terminates
  | blockComment =>
    obtain ⟨noLine, noParagraph⟩ := noSeparator (.inr rfl)
    simpa [breaksAt, isLineTerminator, noLine, noParagraph] using terminates
  | newLine | whitespace => exact terminates

end Trivia

theorem isInlineBlank_of_isLineTerminator {ch : Char} (terminates : isLineTerminator ch = true) :
    isInlineBlank ch = false := by
  simp only [isLineTerminator, Bool.or_eq_true, beq_iff_eq] at terminates
  obtain ((rfl | rfl) | rfl) | rfl := terminates <;> decide

theorem TokenKind.exists_of_isTrivia {k : TokenKind} (trivia : k.isTrivia = true) :
    ∃ t, k = .trivia t := by
  cases k <;> first | exact ⟨_, rfl⟩ | cases trivia

/-! ### What is written for trivia -/

namespace Cursor

variable {c c' : Cursor}

theorem skipRun_eq (p : Char → Bool) (offset : Nat) (text : List Char) :
    skipRun p offset text = ⟨offset + byteLength (text.takeWhile p), text.dropWhile p⟩ := by
  induction text generalizing offset with
  | nil => rfl
  | cons ch rest ih =>
    rw [skipRun, List.takeWhile_cons, List.dropWhile_cons]
    split
    · rw [ih, byteLength, Nat.add_assoc]
    · rfl

theorem of_mem_skipWhile {p : Char → Bool} {ch : Char}
    (member : ch ∈ c.textTo (c.skipWhile p).offset) : p ch = true := by
  have text : c.textTo (c.skipWhile p).offset = c.rest.takeWhile p := by
    apply textTo_of_split
    · rw [skipWhile, skipRun_eq, List.takeWhile_append_dropWhile]
    · rw [skipWhile, skipRun_eq]
  rw [text] at member
  exact List.all_eq_true.1 List.all_takeWhile ch member

theorem textTo_next {ch : Char} {rest : List Char} (here : c.rest = ch :: rest)
    (later : c.next.Reaches c') : c.textTo c'.offset = ch :: c.next.textTo c'.offset := by
  obtain ⟨split, there⟩ := later.textTo
  have next := next_of_cons here
  apply textTo_of_split
  · rw [here, List.cons_append, ← split, next]
  · rw [byteLength, ← Nat.add_assoc]
    exact there.trans (congrArg (·.offset + _) next)

end Cursor

theorem blockCommentEnd_broken (broken : Bool) (offset : Nat) (rest : List Char) :
    (blockCommentEnd broken offset rest).2.1 = (broken ||
      ((Cursor.mk offset rest).textTo (blockCommentEnd broken offset rest).1.offset).any
        (Trivia.breaksAt .blockComment)) := by
  induction broken, offset, rest using blockCommentEnd.induct with
  | case1 broken offset =>
    have nothing : (Cursor.mk offset []).textTo offset = [] :=
      Cursor.textTo_of_split (d := ⟨offset, []⟩) rfl rfl
    rw [blockCommentEnd, nothing, List.any_nil, Bool.or_false]
  | case2 broken offset rest =>
    have closing : (Cursor.mk offset ('*' :: '/' :: rest)).textTo (offset + 2) = ['*', '/'] :=
      Cursor.textTo_of_split (d := ⟨offset + 2, rest⟩) rfl rfl
    have none_ : ['*', '/'].any (Trivia.breaksAt .blockComment) = false := by decide
    rw [blockCommentEnd, closing, none_, Bool.or_false]
  | case3 broken offset ch rest other ih =>
    have later := reaches_blockCommentEnd (broken || ch == '\n' || ch == '\r')
      (offset + ch.utf8Size) rest
    have text := Cursor.textTo_next (c := ⟨offset, ch :: rest⟩) rfl later
    have next : (Cursor.mk offset (ch :: rest)).next = ⟨offset + ch.utf8Size, rest⟩ := rfl
    have breaks : Trivia.breaksAt .blockComment ch = (ch == '\n' || ch == '\r') := rfl
    rw [blockCommentEnd, ih, text, next, List.any_cons, breaks]
    · simp only [Bool.or_assoc]
    · exact other

variable {c : Cursor}

theorem flags_of_plain (plain : (readPiece c).kind.isTrivia = false) :
    (readPiece c).flags.precedingLineBreak = false := by
  cases begun c with
  | shebang _ read | newLine _ _ read | whitespace _ _ read | lineComment _ read
  | blockComment _ read =>
    rw [read] at plain
    cases plain
  | endOfFile _ read | string _ read | template _ read | number _ _ read | name _ _ read =>
    rw [read]
    rfl
  | privateName _ read =>
    rw [read, readPrivateIdentifier]
    split <;> rfl
  | mark _ read =>
    rw [read, readMark]
    split <;> rfl

theorem readLineComment_text (c : Cursor) :
    (c.textTo (readLineComment c).stop.offset).any (Trivia.breaksAt .lineComment) = false := by
  apply List.any_eq_false.2
  intro ch member breaks
  have inside := Cursor.of_mem_skipWhile member
  rw [Bool.not_eq_true'] at inside
  exact Bool.false_ne_true (inside.symm.trans breaks)

theorem readWhitespace_text (c : Cursor) :
    (c.textTo (readWhitespace c).stop.offset).any (Trivia.breaksAt .whitespace) = false := by
  apply List.any_eq_false.2
  intro ch member breaks
  have inside := Cursor.of_mem_skipWhile member
  rw [isInlineBlank_of_isLineTerminator breaks] at inside
  cases inside

theorem readBlockComment_broken {c : Cursor} {rest : List Char} (here : c.rest = '/' :: '*' :: rest) :
    (readBlockComment c).flags.precedingLineBreak =
      (c.textTo (readBlockComment c).stop.offset).any (Trivia.breaksAt .blockComment) := by
  have later : c.next.next.Reaches (readBlockComment c).stop := reaches_blockCommentEnd ..
  have second : c.next.rest = '*' :: rest := by rw [Cursor.next_of_cons here]
  -- the search for the end begins behind the two characters of the mark, which end no line
  rw [Cursor.textTo_next here ((Cursor.reaches_next _).trans later), Cursor.textTo_next second later,
    List.any_cons, List.any_cons]
  exact blockCommentEnd_broken false c.next.next.offset c.next.next.rest

inductive TriviaRead (c : Cursor) : Trivia → Prop where
  | lineComment (read : readPiece c = readLineComment c) : TriviaRead c .lineComment
  | blockComment {rest : List Char} (here : c.rest = '/' :: '*' :: rest)
      (read : readPiece c = readBlockComment c) : TriviaRead c .blockComment
  | newLine {ch : Char} {rest : List Char} (here : c.rest = ch :: rest)
      (breaks : isLineTerminator ch = true) (read : readPiece c = readNewLine c) :
      TriviaRead c .newLine
  | whitespace (read : readPiece c = readWhitespace c) : TriviaRead c .whitespace

theorem triviaRead {k : Trivia} (trivia : (readPiece c).kind = .trivia k) : TriviaRead c k := by
  cases begun c with
  | shebang _ read | lineComment _ read =>
    rw [read] at trivia
    cases trivia
    exact .lineComment read
  | blockComment here read =>
    rw [read] at trivia
    cases trivia
    exact .blockComment here read
  | newLine here breaks read =>
    rw [read] at trivia
    cases trivia
    exact .newLine here breaks read
  | whitespace _ _ read =>
    rw [read] at trivia
    cases trivia
    exact .whitespace read
  | endOfFile _ read | string _ read | template _ read | number _ _ read =>
    rw [read] at trivia
    cases trivia
  | privateName _ read =>
    rw [read, readPrivateIdentifier] at trivia
    split at trivia <;> cases trivia
  | name _ _ read =>
    have isName := readIdentifier_isName c
    rw [← read, trivia] at isName
    cases isName
  | mark _ read =>
    rw [read, readMark] at trivia
    split at trivia <;> cases trivia

theorem readPiece_broken {k : Trivia} (trivia : (readPiece c).kind = .trivia k) :
    (readPiece c).flags.precedingLineBreak =
      (c.textTo (readPiece c).stop.offset).any k.breaksAt := by
  cases triviaRead trivia with
  | lineComment read =>
    rw [read, readLineComment_text]
    rfl
  | blockComment here read =>
    rw [read]
    exact readBlockComment_broken here
  | newLine here breaks read =>
    have passes := passes_readPiece (c := c) (by rw [here]; exact List.cons_ne_nil _ _)
    have first : Trivia.breaksAt .newLine _ = true := breaks
    rw [Cursor.textTo_next here passes.2, List.any_cons, first, read]
    rfl
  | whitespace read =>
    rw [read, readWhitespace_text]
    rfl

/-! ### Marked tokens -/

namespace Token

variable {t : Token}

def breaks (t : Token) : Bool :=
  match t.kind with
  | .trivia k => t.text.toList.any k.breaksAt
  | _ => false

theorem breaks_of_trivia {k : Trivia} (kind : t.kind = .trivia k) :
    t.breaks = t.text.toList.any k.breaksAt := by
  rw [breaks, kind]

theorem breaks_of_plain (plain : t.kind.isTrivia = false) : t.breaks = false := by
  cases kind : t.kind with
  | trivia k =>
    rw [kind] at plain
    cases plain
  | _ => rw [breaks, kind]

theorem isTrivia_of_breaks (breaks : t.breaks = true) : t.kind.isTrivia = true := by
  by_contra plain
  have unbroken := breaks_of_plain (Bool.not_eq_true _ ▸ plain)
  exact Bool.false_ne_true (unbroken.symm.trans breaks)

/-- Whether a token is a comment that holds a separator of lines or of paragraphs. -/
def hidesSeparator (t : Token) : Bool :=
  (t.kind == .trivia .lineComment || t.kind == .trivia .blockComment) &&
    t.text.toList.any fun ch => ch == '\u2028' || ch == '\u2029'

theorem breaks_iff (trivia : t.kind.isTrivia = true) (shown : t.hidesSeparator = false) :
    t.breaks = true ↔ ∃ ch ∈ t.text.toList, isLineTerminator ch = true := by
  obtain ⟨k, kind⟩ := TokenKind.exists_of_isTrivia trivia
  rw [breaks_of_trivia kind, List.any_eq_true]
  constructor
  · rintro ⟨ch, inText, breaks⟩
    exact ⟨ch, inText, Trivia.isLineTerminator_of_breaksAt breaks⟩
  · rintro ⟨ch, inText, terminates⟩
    refine ⟨ch, inText, Trivia.breaksAt_of_isLineTerminator terminates fun comment => ?_⟩
    have isComment : (t.kind == .trivia .lineComment || t.kind == .trivia .blockComment) = true := by
      rw [kind]
      rcases comment with rfl | rfl <;> rfl
    rw [hidesSeparator, isComment, Bool.true_and] at shown
    simpa using List.any_eq_false.1 shown ch inText

theorem behind_broken (t : Token) (fullStart : Nat) (gap : List Token) :
    (t.behind fullStart gap).flags.precedingLineBreak =
      (gap.any (·.flags.precedingLineBreak) || t.flags.precedingLineBreak) := by
  unfold behind
  dsimp only
  induction gap with
  | nil => rfl
  | cons u gap ih =>
    rw [List.map_cons, List.foldr_cons, List.any_cons, Bool.or_assoc, ← ih]
    rfl

end Token

/-- Of pieces, trivia in which a line ends are marked, and nothing else. -/
theorem pieceToken_broken (c : Cursor) :
    (pieceToken c).flags.precedingLineBreak = (pieceToken c).breaks := by
  cases trivia : (pieceToken c).kind.isTrivia with
  | false => exact (flags_of_plain trivia).trans (Token.breaks_of_plain trivia).symm
  | true =>
    obtain ⟨k, kind⟩ := TokenKind.exists_of_isTrivia trivia
    rw [Token.breaks_of_trivia kind, pieceToken, String.toList_ofList]
    exact readPiece_broken kind

namespace KeptAt

variable {p q : Cursor} {all gap : List Token} {t : Token}

theorem marked_iff (h : KeptAt c all p gap q t) :
    t.flags.precedingLineBreak = true ↔
      ∃ u ∈ all, t.fullStart ≤ u.start ∧ u.stop ≤ t.start ∧ u.breaks = true := by
  have own : (pieceToken q).flags.precedingLineBreak = false := flags_of_plain h.plain
  have ofGap : t.flags.precedingLineBreak = gap.any (·.flags.precedingLineBreak) := by
    rw [h.token, Token.behind_broken, own, Bool.or_false]
  have marked : ∀ u ∈ gap, u.flags.precedingLineBreak = u.breaks := by
    intro u member
    obtain ⟨r, rfl, -⟩ := h.paves.mem member
    exact pieceToken_broken r
  rw [ofGap, List.any_eq_true]
  constructor
  · rintro ⟨u, inGap, broken⟩
    obtain ⟨inAll, -, start, stop⟩ := h.mem_gap_iff.1 inGap
    exact ⟨u, inAll, start, stop, (marked u inGap).symm.trans broken⟩
  · rintro ⟨u, inAll, start, stop, breaks⟩
    have inGap := h.mem_gap_iff.2 ⟨inAll, Token.isTrivia_of_breaks breaks, start, stop⟩
    exact ⟨u, inGap, (marked u inGap).trans breaks⟩

theorem between {text : List Char} (h : KeptAt (.start text) all p gap q t) :
    sliceBytes text t.fullStart t.start = some (gap.flatMap (·.text.toList)) := by
  obtain ⟨before, -, -, first, -⟩ := h.around
  rw [h.token, ← h.paves.textTo]
  exact first.reaches.slice h.paves.reaches

/-- Where no comment before a token hides a separator, the token is marked when there is a line
terminator between it and the token that is kept before it. -/
theorem marked_iff_between {text : List Char} (h : KeptAt (.start text) all p gap q t)
    (shown : ∀ u ∈ all, t.fullStart ≤ u.start → u.stop ≤ t.start → u.hidesSeparator = false) :
    ∃ between, sliceBytes text t.fullStart t.start = some between ∧
      (t.flags.precedingLineBreak = true ↔ ∃ ch ∈ between, isLineTerminator ch = true) := by
  apply Exists.intro _
  apply And.intro h.between
  rw [h.marked_iff]
  constructor
  · rintro ⟨u, inAll, start, stop, breaks⟩
    have trivia := Token.isTrivia_of_breaks breaks
    obtain ⟨ch, inText, terminates⟩ := (Token.breaks_iff trivia (shown u inAll start stop)).1 breaks
    have inGap := h.mem_gap_iff.2 ⟨inAll, trivia, start, stop⟩
    exact ⟨ch, List.mem_flatMap.2 ⟨u, inGap, inText⟩, terminates⟩
  · rintro ⟨ch, inBetween, terminates⟩
    obtain ⟨u, inGap, inText⟩ := List.mem_flatMap.1 inBetween
    obtain ⟨inAll, trivia, start, stop⟩ := h.mem_gap_iff.1 inGap
    have breaks := (Token.breaks_iff trivia (shown u inAll start stop)).2 ⟨ch, inText, terminates⟩
    exact ⟨u, inAll, start, stop, breaks⟩

end KeptAt

/-- Whether the tokens of a text say where lines end. A line comment holds no line feed and no
carriage return. A token is marked exactly when trivia right before it hold the end of a line; where
no comment among these hides a separator, this is when there is a line terminator at all between the
token and the one before it. -/
structure LinesMarked (text : String) : Prop where
  comments : ∀ t ∈ tokensOf text false, t.kind = .trivia .lineComment →
    ∀ ch ∈ t.text.toList, ch ≠ '\n' ∧ ch ≠ '\r'
  marked : ∀ t ∈ tokensOf text true, t.flags.precedingLineBreak = true ↔
    ∃ u ∈ tokensOf text false, t.fullStart ≤ u.start ∧ u.stop ≤ t.start ∧ u.breaks = true
  between : ∀ t ∈ tokensOf text true,
    (∀ u ∈ tokensOf text false, t.fullStart ≤ u.start → u.stop ≤ t.start → u.hidesSeparator = false) →
    ∃ between, sliceBytes text.toList t.fullStart t.start = some between ∧
      (t.flags.precedingLineBreak = true ↔ ∃ ch ∈ between, isLineTerminator ch = true)

/-- Of every text the tokens say where lines end. -/
theorem tokensOf_linesMarked (text : String) : LinesMarked text := by
  have pieces := pieces_tokensOf text
  have condenses := condensed_tokensOf text
  constructor
  case comments =>
    intro t member line ch there
    obtain ⟨c, rfl, -⟩ := pieces.mem member
    cases triviaRead line with
    | lineComment read =>
      have noLine := List.any_eq_false.1 (readLineComment_text c) ch
      rw [pieceToken, String.toList_ofList, read] at there
      simpa [Trivia.breaksAt] using noLine there
  case marked =>
    intro t member
    obtain ⟨p, gap, q, kept⟩ := condenses.keptAt pieces rfl member
    exact kept.marked_iff
  case between =>
    intro t member shown
    obtain ⟨p, gap, q, kept⟩ := condenses.keptAt pieces rfl member
    exact kept.marked_iff_between shown

theorem tokensOf_linesMarked_comment :
    ∀ t ∈ tokensOf "a /*b*/\nc" true,
      ∃ between, sliceBytes "a /*b*/\nc".toList t.fullStart t.start = some between ∧
        (t.flags.precedingLineBreak = true ↔ ∃ ch ∈ between, isLineTerminator ch = true) := by
  intro t member
  have shown : ∀ u ∈ tokensOf "a /*b*/\nc" false, u.hidesSeparator = false := by decide +kernel
  exact (tokensOf_linesMarked "a /*b*/\nc").between t member fun u there _ _ => shown u there

example : (tokensOf "//a\u2028b" false).map (·.text) = ["//a\u2028b", ""] := by decide +kernel

example : (tokensOf "/*\u2028*/b" true).map (·.flags.precedingLineBreak) = [false, false] := by
  decide +kernel

end PathGuard
