import Mathlib.Data.List.Chain
import PathGuard.Proofs.Token.Forward
/-!
# Tokens tile the text

A lexer that is moved on and on comes to the end of its text. One that passes over nothing comes to
one token for each piece of the text. These tokens lie one behind the other, from the beginning of
the text to its end, and what is written for all of them is the text.
-/

namespace PathGuard

/-! ### The text between two places -/

theorem takeBytes_byteLength (cs rest : List Char) :
    takeBytes (cs ++ rest) (byteLength cs) = some cs := by
  induction cs with
  | nil => cases rest <;> rfl
  | cons c cs ih =>
    have positive := c.utf8Size_pos
    obtain ⟨n, size⟩ : ∃ n, byteLength (c :: cs) = n + 1 :=
      ⟨byteLength (c :: cs) - 1, by rw [byteLength]; omega⟩
    rw [size, List.cons_append, takeBytes, ← size, byteLength, if_pos (Nat.le_add_right _ _),
      Nat.add_sub_cancel_left, ih]
    rfl

namespace Cursor

variable {c c' : Cursor}

theorem textTo_of_split {d : Cursor} {cs : List Char} (split : c.rest = cs ++ d.rest)
    (there : d.offset = c.offset + byteLength cs) : c.textTo d.offset = cs := by
  rw [textTo, there, if_pos (Nat.le_add_right _ _), Nat.add_sub_cancel_left, split,
    takeBytes_byteLength]
  rfl

theorem Reaches.textTo (h : c.Reaches c') :
    c.rest = c.textTo c'.offset ++ c'.rest ∧
      c'.offset = c.offset + byteLength (c.textTo c'.offset) := by
  obtain ⟨cs, split, there⟩ := h.split
  rw [textTo_of_split split there]
  exact ⟨split, there⟩

theorem Reaches.slice {text : List Char} (h : (Cursor.start text).Reaches c) (h' : c.Reaches c') :
    sliceBytes text c.offset c'.offset = some (c.textTo c'.offset) := by
  obtain ⟨cs, split, there⟩ := h.split
  obtain ⟨rest, further⟩ := h'.textTo
  have dropped : dropBytes text c.offset = some c.rest := by
    have whole : text = cs ++ c.rest := split
    have offset : c.offset = byteLength cs := there.trans (Nat.zero_add _)
    conv_lhs => rw [whole, offset, dropBytes_byteLength]
  have size : c'.offset - c.offset = byteLength (c.textTo c'.offset) := by omega
  rw [sliceBytes, if_pos h'.offset_le, dropped, Option.bind_some, size]
  conv_lhs => rw [rest, takeBytes_byteLength]

end Cursor

/-! ### Moving on -/

/-- Whether a lexer that is moved on and on comes to these tokens, of which the last one is the
first at the end of the text. -/
inductive Lexer.Yields : Lexer → List Token → Prop where
  | last {l : Lexer} (ended : l.scan.kind = .endOfFile) : Yields l [l.scan.token]
  | more {l : Lexer} {ts : List Token} (goesOn : l.scan.kind ≠ .endOfFile)
      (later : l.scan.Yields ts) : Yields l (l.scan.token :: ts)

namespace Lexer

theorem Yields.unique {l : Lexer} {ts us : List Token} (h : l.Yields ts) (h' : l.Yields us) :
    ts = us := by
  induction h generalizing us with
  | last ended =>
    cases h' with
    | last => rfl
    | more goesOn => exact absurd ended goesOn
  | more goesOn later ih =>
    cases h' with
    | last ended => exact absurd ended goesOn
    | more _ later' => rw [ih later']

theorem yields_tokensWithin {fuel : Nat} {l : Lexer} (enough : l.here.rest.length < fuel) :
    l.Yields (l.tokensWithin fuel) := by
  induction fuel generalizing l with
  | zero => cases enough
  | succ fuel ih =>
    rw [tokensWithin]
    split
    · next ended => exact .last ended
    · next goesOn =>
      have behind := (scan_reads l).1.length_le
      have shorter := (passes_scan goesOn).length_lt
      exact .more goesOn (ih (by omega))

theorem yields_tokensOf (text : String) (skipTrivia : Bool) :
    (start text.toList skipTrivia).Yields (tokensOf text skipTrivia) := by
  apply yields_tokensWithin
  show text.toList.length < text.length + 1
  rw [String.length_toList]
  exact Nat.lt_succ_self _

end Lexer

/-! ### Pieces one behind the other -/

def pieceToken (c : Cursor) : Token where
  kind := (readPiece c).kind
  fullStart := c.offset
  start := c.offset
  stop := (readPiece c).stop.offset
  flags := (readPiece c).flags
  value := (readPiece c).value
  text := String.ofList (c.textTo (readPiece c).stop.offset)

/-- Whether tokens are the pieces of a text from one place up to another. -/
inductive Paves : Cursor → List Token → Cursor → Prop where
  | nil (c : Cursor) : Paves c [] c
  | cons {c c' : Cursor} {ts : List Token} (more : c.rest ≠ [])
      (later : Paves (readPiece c).stop ts c') : Paves c (pieceToken c :: ts) c'

inductive Pieces : Cursor → List Token → Prop where
  | last {c : Cursor} (ends : c.rest = []) : Pieces c [pieceToken c]
  | more {c : Cursor} {ts : List Token} (more : c.rest ≠ [])
      (later : Pieces (readPiece c).stop ts) : Pieces c (pieceToken c :: ts)

variable {c c' : Cursor} {ts : List Token}

namespace Paves

theorem reaches (h : Paves c ts c') : c.Reaches c' := by
  induction h with
  | nil c => exact .refl c
  | cons _ _ ih => exact (reaches_readPiece _).trans ih

theorem append {m : Cursor} {us : List Token} (h : Paves c ts m) (h' : Paves m us c') :
    Paves c (ts ++ us) c' := by
  induction h with
  | nil => exact h'
  | cons more _ ih => exact .cons more (ih h')

theorem textTo (h : Paves c ts c') : c.textTo c'.offset = ts.flatMap (·.text.toList) := by
  have split : c.rest = ts.flatMap (·.text.toList) ++ c'.rest ∧
      c'.offset = c.offset + byteLength (ts.flatMap (·.text.toList)) := by
    induction h with
    | nil c => exact ⟨rfl, rfl⟩
    | @cons c c' ts more later ih =>
      obtain ⟨first, stop⟩ := (reaches_readPiece c).textTo
      obtain ⟨rest, there⟩ := ih
      have text : (pieceToken c).text.toList = c.textTo (readPiece c).stop.offset :=
        String.toList_ofList
      rw [List.flatMap_cons, text, byteLength_append, List.append_assoc, ← rest]
      exact ⟨first, by omega⟩
  exact Cursor.textTo_of_split split.1 split.2

theorem mem (h : Paves c ts c') {t : Token} (member : t ∈ ts) :
    ∃ p, t = pieceToken p ∧ c.Reaches p ∧ p.Passes (readPiece p).stop ∧
      (readPiece p).stop.Reaches c' := by
  induction h with
  | nil => cases member
  | cons more later ih =>
    cases member with
    | head => exact ⟨_, rfl, .refl _, passes_readPiece more, later.reaches⟩
    | tail _ member =>
      obtain ⟨p, same, behind, place⟩ := ih member
      exact ⟨p, same, (reaches_readPiece _).trans behind, place⟩

end Paves

theorem readPiece_goesOn (more : c.rest ≠ []) : (readPiece c).kind ≠ .endOfFile := by
  intro ended
  cases begun c with
  | endOfFile ends => exact more ends
  | shebang _ read | newLine _ _ read | whitespace _ _ read | lineComment _ read
  | blockComment _ read | string _ read | template _ read | number _ _ read =>
    rw [read] at ended
    cases ended
  | privateName _ read =>
    rw [read, readPrivateIdentifier] at ended
    split at ended <;> cases ended
  | name _ _ read =>
    obtain name | ⟨w, word⟩ := readIdentifier_kind c
    · cases (read ▸ ended).symm.trans name
    · cases (read ▸ ended).symm.trans word
  | mark _ read =>
    rw [read, readMark] at ended
    split at ended <;> cases ended

namespace Pieces

theorem head (h : Pieces c ts) : ts.head? = some (pieceToken c) := by
  cases h <;> rfl

theorem split {us : List Token} (h : Pieces c (ts ++ us)) (some_ : us ≠ []) :
    ∃ m, Paves c ts m ∧ Pieces m us := by
  induction ts generalizing c with
  | nil => exact ⟨c, .nil c, h⟩
  | cons t ts ih =>
    rw [List.cons_append] at h
    generalize rest : ts ++ us = all at h
    cases h with
    | last => exact absurd (List.append_eq_nil_iff.1 rest).2 some_
    | more more later =>
      rw [← rest] at later
      obtain ⟨m, paves, pieces⟩ := ih later
      exact ⟨m, .cons more paves, pieces⟩

theorem ends (h : Pieces c ts) :
    ∃ before e, ts = before ++ [pieceToken e] ∧ Paves c before e ∧ e.rest = [] := by
  induction h with
  | @last c ends => exact ⟨[], c, rfl, .nil c, ends⟩
  | more more later ih =>
    obtain ⟨before, e, rfl, paves, ends⟩ := ih
    exact ⟨pieceToken _ :: before, e, rfl, .cons more paves, ends⟩

theorem mem (h : Pieces c ts) {t : Token} (member : t ∈ ts) :
    ∃ p, t = pieceToken p ∧ c.Reaches p := by
  obtain ⟨before, e, rfl, paves, -⟩ := h.ends
  rcases List.mem_append.1 member with member | last
  · obtain ⟨p, same, behind, -⟩ := paves.mem member
    exact ⟨p, same, behind⟩
  · exact ⟨e, List.mem_singleton.1 last, paves.reaches⟩

theorem chain (h : Pieces c ts) : ts.IsChain fun t u => u.start = t.stop := by
  induction h with
  | last => exact List.isChain_singleton _
  | more more later ih =>
    apply List.isChain_cons.2
    refine ⟨fun u first => ?_, ih⟩
    rw [later.head, Option.mem_some_iff] at first
    rw [← first]
    rfl

end Pieces

namespace Lexer

variable {l : Lexer}

theorem scan_keeping (keeps : l.skipTrivia = false) :
    l.scan.token = pieceToken l.here ∧ l.scan.here = (readPiece l.here).stop := by
  unfold scan
  rw [keeps, if_neg Bool.false_ne_true]
  constructor
  · simp [token, tokenText, pieceToken, TokenFlags.none_union]
  · rfl

theorem Yields.pieces (h : l.Yields ts) (keeps : l.skipTrivia = false) : Pieces l.here ts := by
  induction h with
  | @last l ended =>
    obtain ⟨token, -⟩ := scan_keeping keeps
    rw [token]
    apply Pieces.last
    by_contra more
    exact readPiece_goesOn more ((congrArg Token.kind token).symm.trans ended)
  | @more l ts goesOn later ih =>
    obtain ⟨token, stop⟩ := scan_keeping keeps
    have rest : Pieces l.scan.here ts := ih keeps
    rw [token]
    refine .more (fun ends => goesOn ?_) (stop ▸ rest)
    exact (congrArg Token.kind token).trans (by rw [pieceToken, readPiece_nil ends]; rfl)

end Lexer

/-! ### The whole text -/

/-- Whether tokens tile a text: each begins where the one before it stops, at characters of the
text, all of them but the last take characters, the last one is the end of the text, and together
they are the text. -/
structure Tiled (text : String) (ts : List Token) : Prop where
  first : ∃ t, ts.head? = some t ∧ t.start = 0
  behind : ts.IsChain fun t u => u.start = t.stop
  fullStart : ∀ t ∈ ts, t.fullStart = t.start
  boundary : ∀ t ∈ ts, IsBoundary text.toList t.start ∧ IsBoundary text.toList t.stop
  ended : ∃ before last, ts = before ++ [last] ∧
    (∀ t ∈ before, t.kind ≠ .endOfFile ∧ t.start < t.stop) ∧ last.kind = .endOfFile ∧
      last.start = byteLength text.toList ∧ last.stop = byteLength text.toList
  whole : String.join (ts.map Token.text) = text

theorem Pieces.tiled {text : String} (h : Pieces (.start text.toList) ts) : Tiled text ts := by
  obtain ⟨before, e, same, paves, ends⟩ := h.ends
  have last : pieceToken e = ⟨.endOfFile, e.offset, e.offset, e.offset, .none, "", ""⟩ := by
    have nothing : e.textTo e.offset = [] := Cursor.textTo_of_split rfl rfl
    unfold pieceToken
    rw [readPiece_nil ends]
    simp [Piece.plain, nothing]
  have all : text.toList = before.flatMap (·.text.toList) ∧
      e.offset = byteLength (before.flatMap (·.text.toList)) := by
    obtain ⟨split, there⟩ := paves.reaches.textTo
    rw [ends, List.append_nil, paves.textTo] at split
    rw [paves.textTo] at there
    exact ⟨split, there.trans (Nat.zero_add _)⟩
  refine {
    first := ⟨_, h.head, rfl⟩
    behind := h.chain
    fullStart := fun t member => ?_
    boundary := fun t member => ?_
    ended := ⟨before, pieceToken e, same, fun t member => ?_, ?_⟩
    whole := ?_ }
  · obtain ⟨p, rfl, -⟩ := h.mem member
    rfl
  · obtain ⟨p, rfl, behind⟩ := h.mem member
    exact ⟨behind.boundary, (behind.trans (reaches_readPiece p)).boundary⟩
  · obtain ⟨p, rfl, -, passes, -⟩ := paves.mem member
    exact ⟨readPiece_goesOn passes.1, passes.offset_lt⟩
  · rw [last, all.1]
    exact ⟨rfl, all.2, all.2⟩
  · apply String.toList_injective
    rw [String.toList_join, same, List.flatMap_map, List.flatMap_append, ← all.1]
    simp [last]

theorem pieces_tokensOf (text : String) : Pieces (.start text.toList) (tokensOf text false) :=
  (Lexer.yields_tokensOf text false).pieces rfl

/-- Whatever the text, a lexer that passes over nothing comes to its end, and the tokens on the way
tile the text. -/
theorem tokensOf_tiled (text : String) :
    (Lexer.start text.toList false).Yields (tokensOf text false) ∧ Tiled text (tokensOf text false) :=
  ⟨Lexer.yields_tokensOf text false, (pieces_tokensOf text).tiled⟩

-- A shebang, a break of two characters, an open escape and an open comment.
example : (tokensOf "#!a\r\n\\u\x7b /*é" false).map Token.text = ["#!a", "\r\n", "\\u", "\x7b", " ", "/*é", ""] := by
  decide +kernel

end PathGuard
