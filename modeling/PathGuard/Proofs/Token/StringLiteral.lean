import PathGuard.Proofs.Token.Escape
import PathGuard.Proofs.Token.Trivia
/-!
# The value of a string

However each character of a string is written between its quotes, and wherever lines are continued by
a backslash, the lexer reads the literal as one token whose value is the string.
-/

namespace PathGuard

/-- Whether a text between quotes writes a string: each of its characters stands there as it is, or
behind a backslash in one of the ways to write it, and there may be ends of lines behind backslashes
between them. -/
inductive Writes (quote : Char) : (value body : List Char) → Prop where
  | nil : Writes quote [] []
  | plain {c : Char} {value body : List Char}
      (other : c ≠ quote ∧ c ≠ '\\' ∧ c ≠ '\n' ∧ c ≠ '\r') (later : Writes quote value body) :
      Writes quote (c :: value) (c :: body)
  | escaped {c : Char} {value text body : List Char} (escape : Escapes c text)
      (later : Writes quote value body) : Writes quote (c :: value) ('\\' :: (text ++ body))
  | continued {value stop body : List Char} (line : stop ∈ lineEnds)
      (later : Writes quote value body) : Writes quote value ('\\' :: (stop ++ body))

variable {quote : Char} {value body : List Char}

theorem Writes.head?_ne (h : Writes quote value body) (isQuote : quote = '"' ∨ quote = '\'')
    (rest : List Char) : (body ++ quote :: rest).head? ≠ some '\n' := by
  cases h with
  | nil => rcases isQuote with rfl | rfl <;> simp
  | plain other later => simp [other.2.2.1]
  | escaped escape later => simp
  | continued line later => simp

theorem readStringContent_escape {text : List Char} {offset : Nat} {read : Option Char}
    {stop : Cursor} (isQuote : quote = '"' ∨ quote = '\'')
    (escape : readEscape ⟨offset + 1, text⟩ = ⟨read, stop, false⟩) (b : Char)
    (bound : List Char) :
    readStringContent quote (b :: bound) ⟨offset, '\\' :: text⟩ =
      (readStringContent quote bound stop).push read false := by
  have size : '\\'.utf8Size = 1 := by decide
  have other : '\\' ≠ quote := by rcases isQuote with rfl | rfl <;> decide
  rw [readStringContent]
  simp [Cursor.peek, Cursor.next, other, size, escape]

theorem Writes.read (h : Writes quote value body) (isQuote : quote = '"' ∨ quote = '\'')
    {bound : List Char} (enough : body.length < bound.length) (offset : Nat) (rest : List Char) :
    readStringContent quote bound ⟨offset, body ++ quote :: rest⟩ =
      ⟨value, ⟨offset + byteLength body + 1, rest⟩, false⟩ := by
  have size : quote.utf8Size = 1 := by rcases isQuote with rfl | rfl <;> decide
  induction h generalizing bound offset with
  | nil =>
    obtain ⟨b, bound, rfl⟩ := List.exists_cons_of_length_pos enough
    have noFeed : quote ≠ '\n' := by rcases isQuote with rfl | rfl <;> decide
    have noReturn : quote ≠ '\r' := by rcases isQuote with rfl | rfl <;> decide
    rw [readStringContent]
    simp [Cursor.peek, Cursor.next, noFeed, noReturn, size, byteLength]
  | @plain c value body other later ih =>
    obtain ⟨b, bound, rfl⟩ := List.exists_cons_of_length_pos (Nat.zero_lt_of_lt enough)
    obtain ⟨noQuote, noEscape, noFeed, noReturn⟩ := other
    have read := ih (Nat.lt_of_succ_lt_succ enough) (offset + c.utf8Size)
    rw [List.cons_append, readStringContent]
    simp only [Cursor.peek, List.head?_cons, noQuote, noEscape, noFeed, noReturn, decide_false,
      Bool.or_self, Bool.false_eq_true, if_false]
    rw [Cursor.next_of_cons rfl, read, Content.push, byteLength, ← Nat.add_assoc]
    rfl
  | @escaped c value text body escape later ih =>
    obtain ⟨b, bound, rfl⟩ := List.exists_cons_of_length_pos (Nat.zero_lt_of_lt enough)
    have slash : '\\'.utf8Size = 1 := by decide
    have short : body.length < bound.length := by
      simp only [List.length_cons, List.length_append] at enough
      omega
    have length : offset + 1 + byteLength text + byteLength body + 1 =
        offset + byteLength ('\\' :: (text ++ body)) + 1 := by
      rw [byteLength, byteLength_append, slash]
      omega
    rw [List.cons_append, List.append_assoc, readStringContent_escape isQuote (escape.read _ _),
      ih short, length]
    rfl
  | @continued value stop body line later ih =>
    obtain ⟨b, bound, rfl⟩ := List.exists_cons_of_length_pos (Nat.zero_lt_of_lt enough)
    have slash : '\\'.utf8Size = 1 := by decide
    have short : body.length < bound.length := by
      simp only [List.length_cons, List.length_append] at enough
      omega
    have length : offset + 1 + byteLength stop + byteLength body + 1 =
        offset + byteLength ('\\' :: (stop ++ body)) + 1 := by
      rw [byteLength, byteLength_append, slash]
      omega
    -- a line feed behind a carriage return would be taken as a part of the same line end
    have noFeed := later.head?_ne isQuote rest
    rw [List.cons_append, List.append_assoc,
      readStringContent_escape isQuote (readEscape_lineEnd line noFeed _), ih short, length]
    rfl

theorem Writes.readPiece (h : Writes quote value body) (isQuote : quote = '"' ∨ quote = '\'')
    (offset : Nat) (rest : List Char) :
    readPiece ⟨offset, quote :: (body ++ [quote]) ++ rest⟩ =
      ⟨.literal .string, ⟨offset + byteLength (quote :: (body ++ [quote])), rest⟩,
        String.ofList value, .none⟩ := by
  have size : quote.utf8Size = 1 := by rcases isQuote with rfl | rfl <;> decide
  have length : offset + 1 + byteLength body + 1 =
      offset + byteLength (quote :: (body ++ [quote])) := by
    rw [byteLength, byteLength_append, byteLength, byteLength, size]
    omega
  have content : readStringContent quote (quote :: (body ++ quote :: rest))
      ⟨offset + 1, body ++ quote :: rest⟩ =
        ⟨value, ⟨offset + 1 + byteLength body + 1, rest⟩, false⟩ := by
    apply h.read isQuote
    rw [List.length_cons, List.length_append]
    omega
  have literal : readString quote ⟨offset, quote :: (body ++ quote :: rest)⟩ =
      ⟨.literal .string, ⟨offset + 1 + byteLength body + 1, rest⟩, String.ofList value, .none⟩ := by
    rw [readString, Cursor.next_of_cons rfl, size]
    simp only [content]
    rfl
  have shape : quote :: (body ++ [quote]) ++ rest = quote :: (body ++ quote :: rest) := by
    rw [List.cons_append, List.append_assoc, List.singleton_append]
  have begins : PathGuard.readPiece ⟨offset, quote :: (body ++ quote :: rest)⟩ =
      readString quote ⟨offset, quote :: (body ++ quote :: rest)⟩ := by
    rcases isQuote with rfl | rfl
    · simp [PathGuard.readPiece, List.isPrefixOf, isLineTerminator, isInlineBlank]
    · simp [PathGuard.readPiece, List.isPrefixOf, isLineTerminator, isInlineBlank]
  rw [shape, begins, literal, length]

/-- A literal with any quotes and any way to write its characters is one token, wherever it stands in
a text. It has all of the literal as its text and the string as its value, and it is closed; and when
the text is the literal alone, there is no other token but the end. -/
theorem tokensOf_literal (isQuote : quote = '"' ∨ quote = '\'') (h : Writes quote value body) :
    let text := quote :: (body ++ [quote])
    let token (start : Nat) : Token :=
      { kind := .literal .string, fullStart := start, start := start
        stop := start + byteLength text, flags := .none, value := String.ofList value
        text := String.ofList text }
    (∀ (l : Lexer) (rest : List Char), l.here.rest = text ++ rest →
      l.scan.token = token l.here.offset ∧
        l.scan.here = ⟨l.here.offset + byteLength text, rest⟩) ∧
    ∀ skipTrivia : Bool, tokensOf (String.ofList text) skipTrivia =
      [token 0, ⟨.endOfFile, byteLength text, byteLength text, byteLength text, .none, "", ""⟩] := by
  intro text token
  have scanned (l : Lexer) (rest : List Char) (here : l.here.rest = text ++ rest) :
      l.scan.token = token l.here.offset ∧
        l.scan.here = ⟨l.here.offset + byteLength text, rest⟩ := by
    have piece : PathGuard.readPiece l.here = ⟨.literal .string,
        ⟨l.here.offset + byteLength text, rest⟩, String.ofList value, .none⟩ := by
      have read := h.readPiece isQuote l.here.offset rest
      rwa [← here] at read
    have spelled : l.here.textTo (l.here.offset + byteLength text) = text :=
      Cursor.textTo_of_split (d := ⟨_, rest⟩) here rfl
    obtain ⟨first, behind⟩ := Lexer.scan_piece (l := l) (by rw [piece]; rfl)
    rw [first, behind, pieceToken, piece, spelled]
    exact ⟨rfl, rfl⟩
  refine ⟨scanned, fun skipTrivia => ?_⟩
  let start := Lexer.start text skipTrivia
  obtain ⟨first, behind⟩ := scanned start [] (List.append_nil text).symm
  have ended : PathGuard.readPiece start.scan.here = .plain .endOfFile start.scan.here :=
    readPiece_nil (by rw [behind])
  obtain ⟨last, -⟩ := Lexer.scan_piece (l := start.scan) (by rw [ended]; rfl)
  have tail : start.scan.scan.token =
      ⟨.endOfFile, byteLength text, byteLength text, byteLength text, .none, "", ""⟩ := by
    have nothing : start.scan.here.textTo start.scan.here.offset = [] :=
      Cursor.textTo_of_split rfl rfl
    have place : start.scan.here.offset = byteLength text := by
      rw [behind]
      exact Nat.zero_add _
    rw [last, pieceToken, ended, Piece.plain, nothing, place]
  have goesOn : start.scan.kind ≠ .endOfFile := by
    have kind : start.scan.kind = .literal .string := congrArg Token.kind first
    rw [kind]
    decide
  have yields : start.Yields [start.scan.token, start.scan.scan.token] :=
    .more goesOn (.last (congrArg Token.kind tail))
  rw [first, tail] at yields
  have all := Lexer.yields_tokensOf (String.ofList text) skipTrivia
  rw [String.toList_ofList] at all
  exact all.unique yields

/-- All ways to write a character in one literal, with lines continued in three ways. -/
theorem tokensOf_literal_mixed :
    let value := ['"', '\t', 'ÿ', '€', '😀', 'x']
    let body := ['"', '\\', '\n', '\\', 't', '\\', '\r', '\n', '\\', 'x', 'F', 'f', '\\', 'u', '2',
      '0', 'a', 'C', '\\', '\r', '\\', 'u', '\x7b', '1', 'F', '6', '0', '0', '\x7d', 'x']
    Writes '\'' value body ∧
      tokensOf (String.ofList ('\'' :: (body ++ ['\'']))) true =
        [⟨.literal .string, 0, 0, 32, .none, "\"\tÿ€😀x", String.ofList ('\'' :: (body ++ ['\'']))⟩,
          ⟨.endOfFile, 32, 32, 32, .none, "", ""⟩] := by
  intro value body
  have written : Writes '\'' value body := by
    have feed : ['\n'] ∈ lineEnds := by decide
    have both : ['\r', '\n'] ∈ lineEnds := by decide
    have carriage : ['\r'] ∈ lineEnds := by decide
    have tab : Escapes '\t' ['t'] := .letter (by decide)
    have byte : Escapes 'ÿ' ['x', 'F', 'f'] := .byte rfl (by decide)
    have unit : Escapes '€' ['u', '2', '0', 'a', 'C'] := .unit rfl (by decide)
    have braced : Escapes '😀' ('u' :: '\x7b' :: (['1', 'F', '6', '0', '0'] ++ ['\x7d'])) :=
      .braced (by decide) (by decide) (by decide)
    exact .plain (by decide) (.continued feed (.escaped tab (.continued both (.escaped byte
      (.escaped unit (.continued carriage (.escaped braced (.plain (by decide) .nil))))))))
  exact ⟨written, (tokensOf_literal (.inr rfl) written).2 true⟩

end PathGuard
