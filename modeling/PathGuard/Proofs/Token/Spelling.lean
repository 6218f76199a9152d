import PathGuard.Proofs.Token.Word
/-!
# How words are spelled

Names of ASCII characters, strings without escapes, and the marks of chains and patterns, each
before what may follow it.
-/

namespace PathGuard

def isAsciiStart (c : Char) : Bool := c.isAlpha || c == '$' || c == '_'

def isAsciiPart (c : Char) : Bool := isAsciiStart c || c.isDigit

/-- A name of ASCII characters, which may be a word of the language. -/
structure AsciiName where
  first : Char
  rest : List Char
  starts : isAsciiStart first = true
  goesOn : ∀ c ∈ rest, isAsciiPart c = true

/-- A text that stands between double quotes as it is. -/
structure PlainText where
  chars : List Char
  plain : ∀ c ∈ chars, c ≠ '"' ∧ c ≠ '\\' ∧ c ≠ '\n' ∧ c ≠ '\r'

namespace AsciiName

def chars (n : AsciiName) : List Char := n.first :: n.rest

def text (n : AsciiName) : String := String.ofList n.chars

def IsFree (n : AsciiName) : Prop := Keyword.ofText? n.text = none

def kind (n : AsciiName) : TokenKind :=
  match Keyword.ofText? n.text with
  | some k => .word k
  | none => .identifier

theorem IsFree.kind_eq {n : AsciiName} (free : n.IsFree) : n.kind = .identifier := by
  rw [kind, free]

def word (n : AsciiName) (blank : Bool) : Word := ⟨n.kind, n.text, blank, n.chars⟩

end AsciiName

namespace PlainText

def text (s : PlainText) : String := String.ofList s.chars

def word (s : PlainText) (blank : Bool) : Word :=
  ⟨.literal .string, s.text, blank, '"' :: (s.chars ++ ['"'])⟩

end PlainText

def markWord (p : Punctuator) (blank : Bool) : Word := ⟨.mark p, "", blank, p.chars⟩

/-! ### ASCII characters -/

theorem ascii_induction {P : Char → Bool} (all : ∀ n < 128, P (Char.ofNat n) = true) {c : Char}
    (low : c.toNat < 128) : P c = true := by
  have each := all c.toNat low
  rwa [Char.ofNat_toNat] at each

theorem isAsciiPart_lt {c : Char} (h : isAsciiPart c = true) : c.toNat < 128 := by
  have alpha : c.isAlpha = (decide ('A'.val ≤ c.val ∧ c.val ≤ 'Z'.val) ||
      decide ('a'.val ≤ c.val) && decide (c.val ≤ 'z'.val)) := rfl
  simp only [isAsciiPart, isAsciiStart, alpha, Char.isDigit, Bool.or_eq_true, Bool.and_eq_true,
    decide_eq_true_eq, beq_iff_eq, UInt32.le_iff_toNat_le, ge_iff_le] at h
  have value : c.toNat = c.val.toNat := rfl
  have upper : 'Z'.val.toNat = 90 := rfl
  have lower : 'z'.val.toNat = 122 := rfl
  have digit : '9'.val.toNat = 57 := rfl
  rcases h with (((h | h) | rfl) | rfl) | h
  · omega
  · omega
  · decide
  · decide
  · omega

theorem isAsciiStart_spec {c : Char} (h : isAsciiStart c = true) :
    isLineTerminator c = false ∧ isInlineBlank c = false ∧ c ≠ '/' ∧ c ≠ '"' ∧ c ≠ '\'' ∧
      c ≠ '\x60' ∧ c.isDigit = false ∧ c ≠ '.' ∧ c ≠ '#' ∧ isIdentifierStart c = true := by
  have low : c.toNat < 128 := isAsciiPart_lt (by rw [isAsciiPart, h, Bool.true_or])
  have all := ascii_induction (c := c) (P := fun c => decide (isAsciiStart c = true →
    isLineTerminator c = false ∧ isInlineBlank c = false ∧ c ≠ '/' ∧ c ≠ '"' ∧ c ≠ '\'' ∧
      c ≠ '\x60' ∧ c.isDigit = false ∧ c ≠ '.' ∧ c ≠ '#' ∧ isIdentifierStart c = true))
    (by decide +kernel) low
  exact of_decide_eq_true all h

theorem isIdentifierPart_of_ascii {c : Char} (h : isAsciiPart c = true) :
    isIdentifierPart c = true := by
  rw [isAsciiPart, isAsciiStart, Bool.or_eq_true, Bool.or_eq_true, Bool.or_eq_true] at h
  unfold isIdentifierPart isIdentifierStart
  rcases h with ((h | h) | h) | h
  · simp [h]
  · simp [h]
  · simp [h]
  · simp [h]

/-! ### Names -/

/-- Whether a text ends the name before it. -/
def EndsName (rest : List Char) : Prop := ∀ c ∈ rest.head?, isIdentifierPart c = false ∧ c ≠ '\\'

theorem readNameChars_ascii (bound : List Char) {cs rest : List Char} (ascii : ∀ c ∈ cs, isAsciiPart c = true)
    (ends : EndsName rest) (enough : cs.length ≤ bound.length) (offset : Nat) :
    readNameChars bound ⟨offset, cs ++ rest⟩ =
      ⟨cs, ⟨offset + byteLength cs, rest⟩, false, false⟩ := by
  induction cs generalizing bound offset with
  | nil =>
    rw [List.nil_append, byteLength, Nat.add_zero]
    cases bound with
    | nil => rfl
    | cons b bound =>
      rw [readNameChars]
      cases rest with
      | nil => rfl
      | cons c rest =>
        obtain ⟨other, noEscape⟩ := ends c rfl
        simp only [other, Bool.false_eq_true, if_false, noEscape, decide_false, Bool.false_and]
  | cons c cs ih =>
    cases bound with
    | nil => simp at enough
    | cons b bound =>
      have part := isIdentifierPart_of_ascii (ascii c (List.mem_cons_self ..))
      have rest := ih bound (fun d hd => ascii d (List.mem_cons_of_mem _ hd))
        (Nat.le_of_succ_le_succ enough) (offset + c.utf8Size)
      rw [List.cons_append, readNameChars]
      simp only [part, if_true]
      rw [Cursor.next_of_cons rfl, rest, Name.push, byteLength, Nat.add_assoc]
      rfl

theorem legible_name (n : AsciiName) (blank : Bool) {rest : List Char} (ends : EndsName rest) :
    (n.word blank).Legible rest := by
  obtain ⟨noLine, noBlank, slash, quote, single, tick, digit, dot, hash, starts⟩ :=
    isAsciiStart_spec n.starts
  have part : isAsciiPart n.first = true := by rw [isAsciiPart, n.starts, Bool.true_or]
  have ascii : ∀ c ∈ n.chars, isAsciiPart c = true := List.forall_mem_cons.2 ⟨part, n.goesOn⟩
  refine ⟨?_, ?_, ⟨n.first, n.rest, rfl, noBlank⟩, fun offset =>
    ⟨.none, TokenFlags.isQuiet_none, ?_⟩⟩
  · unfold AsciiName.word AsciiName.kind
    split <;> rfl
  · unfold AsciiName.word AsciiName.kind
    split <;> exact nofun
  · have read : readName ⟨offset, n.chars ++ rest⟩ =
        ⟨n.chars, ⟨offset + byteLength n.chars, rest⟩, false, false⟩ :=
      readNameChars_ascii _ ascii ends (by simp) offset
    have piece : readIdentifier ⟨offset, n.chars ++ rest⟩ =
        ⟨n.kind, ⟨offset + byteLength n.chars, rest⟩, n.text, .none⟩ := by
      unfold readIdentifier
      rw [read]
      rfl
    have noComment : ['#', '!'].isPrefixOf (n.first :: (n.rest ++ rest)) = false := by
      simp [List.isPrefixOf, hash.symm]
    change readPiece ⟨offset, n.first :: (n.rest ++ rest)⟩ = _
    unfold readPiece
    simp only [noComment, Bool.and_false, Bool.false_eq_true, if_false, noLine, noBlank, slash,
      quote, single, tick, digit, dot, hash, starts, decide_false, Bool.false_and, Bool.or_self,
      Bool.true_or, if_true]
    exact piece

/-! ### Strings -/

theorem readStringContent_plain (bound rest : List Char) {cs : List Char}
    (plain : ∀ c ∈ cs, c ≠ '"' ∧ c ≠ '\\' ∧ c ≠ '\n' ∧ c ≠ '\r')
    (enough : cs.length < bound.length) (offset : Nat) :
    readStringContent '"' bound ⟨offset, cs ++ '"' :: rest⟩ =
      ⟨cs, ⟨offset + byteLength cs + 1, rest⟩, false⟩ := by
  induction cs generalizing bound offset with
  | nil =>
    cases bound with
    | nil => cases enough
    | cons b bound =>
      rw [readStringContent]
      simp [Cursor.peek, Cursor.next, byteLength]
      decide
  | cons c cs ih =>
    cases bound with
    | nil => cases enough
    | cons b bound =>
      obtain ⟨quote, escape, feed, ret⟩ := plain c (List.mem_cons_self ..)
      have rest := ih bound (fun d hd => plain d (List.mem_cons_of_mem _ hd))
        (Nat.lt_of_succ_lt_succ enough) (offset + c.utf8Size)
      rw [List.cons_append, readStringContent]
      simp only [Cursor.peek, List.head?_cons, feed, ret, quote, escape, decide_false,
        Bool.or_self, Bool.false_eq_true, if_false]
      rw [Cursor.next_of_cons rfl, rest, Content.push, byteLength, ← Nat.add_assoc]
      rfl

theorem legible_string (s : PlainText) (blank : Bool) (rest : List Char) :
    (s.word blank).Legible rest := by
  refine ⟨rfl, nofun, ⟨'"', _, rfl, by decide⟩, fun offset =>
    ⟨.none, TokenFlags.isQuiet_none, ?_⟩⟩
  have content := readStringContent_plain ('"' :: (s.chars ++ '"' :: rest)) rest s.plain
    (by
      rw [List.length_cons, List.length_append]
      omega) (offset + 1)
  have noComment : ['#', '!'].isPrefixOf ('"' :: (s.chars ++ '"' :: rest)) = false := by
    simp [List.isPrefixOf]
  have piece : readString '"' ⟨offset, '"' :: (s.chars ++ '"' :: rest)⟩ =
      ⟨.literal .string, ⟨offset + 1 + byteLength s.chars + 1, rest⟩, s.text, .none⟩ := by
    unfold readString
    rw [Cursor.next_of_cons rfl]
    have one : '"'.utf8Size = 1 := by decide
    rw [one, content]
    rfl
  have stop : offset + 1 + byteLength s.chars + 1 =
      offset + byteLength ('"' :: (s.chars ++ ['"'])) := by
    have one : '"'.utf8Size = 1 := by decide
    rw [byteLength, byteLength_append, byteLength, byteLength, one]
    omega
  have shape : (s.word blank).chars ++ rest = '"' :: (s.chars ++ '"' :: rest) := by
    simp [PlainText.word]
  rw [shape]
  unfold readPiece
  simp only [noComment, Bool.and_false, Bool.false_eq_true, if_false]
  change readString '"' ⟨offset, '"' :: (s.chars ++ '"' :: rest)⟩ = _
  rw [piece, stop]
  rfl

/-! ### Marks -/

def isMarkStart (c : Char) : Bool :=
  !(isLineTerminator c || isInlineBlank c || c == '/' || c == '"' || c == '\'' || c == '\x60' ||
    c.isDigit || c == '#' || isIdentifierStart c || c == '\\')

theorem readPiece_mark {c : Char} {cs : List Char} (start : isMarkStart c = true)
    (noNumber : c ≠ '.' ∨ cs.head?.any Char.isDigit = false) (offset : Nat) :
    readPiece ⟨offset, c :: cs⟩ = readMark ⟨offset, c :: cs⟩ := by
  simp only [isMarkStart, Bool.not_eq_true', Bool.or_eq_false_iff, beq_eq_false_iff_ne] at start
  obtain ⟨⟨⟨⟨⟨⟨⟨⟨⟨line, blank⟩, slash⟩, quote⟩, single⟩, tick⟩, digit⟩, hash⟩, starts⟩, escape⟩ := start
  have noComment : ['#', '!'].isPrefixOf (c :: cs) = false := by
    simp [List.isPrefixOf, hash.symm]
  have noEscape : atCodePointEscape (c :: cs) = false := by
    simp [atCodePointEscape, List.isPrefixOf, escape.symm]
  have number : (decide (c = '.') && cs.head?.any Char.isDigit) = false := by
    rcases noNumber with other | other
    · rw [decide_eq_false other, Bool.false_and]
    · rw [other, Bool.and_false]
  unfold readPiece
  simp only [noComment, noEscape, number, Bool.and_false, Bool.false_eq_true, if_false, line, blank,
    slash, quote, single, tick, digit, hash, starts, decide_false, Bool.false_and, Bool.or_self]

theorem legible_mark (p : Punctuator) (blank : Bool) {rest : List Char}
    (shape : ∃ c cs, p.chars = c :: cs ∧ isMarkStart c = true ∧
      (c ≠ '.' ∨ (cs ++ rest).head?.any Char.isDigit = false))
    (longest : Punctuator.longest? (p.chars ++ rest) = some p) :
    (markWord p blank).Legible rest := by
  obtain ⟨c, cs, chars, start, noNumber⟩ := shape
  refine ⟨rfl, nofun, ⟨c, cs, chars, ?_⟩, fun offset => ⟨.none, TokenFlags.isQuiet_none, ?_⟩⟩
  · simp only [isMarkStart, Bool.not_eq_true', Bool.or_eq_false_iff] at start
    exact start.1.1.1.1.1.1.1.1.2
  · have skipped (cs : List Char) (offset : Nat) :
        (Cursor.mk offset (cs ++ rest)).skip cs.length = ⟨offset + byteLength cs, rest⟩ := by
      induction cs generalizing offset with
      | nil => rfl
      | cons c cs ih =>
        rw [List.length_cons, Cursor.skip, Cursor.next_of_cons rfl]
        change (Cursor.mk (offset + c.utf8Size) (cs ++ rest)).skip cs.length = _
        rw [ih, byteLength, Nat.add_assoc]
    change readPiece ⟨offset, p.chars ++ rest⟩ = _
    have piece : readPiece ⟨offset, c :: (cs ++ rest)⟩ = readMark _ :=
      readPiece_mark start noNumber offset
    rw [← List.cons_append, ← chars] at piece
    rw [piece, readMark, longest]
    simp only [skipped]
    rfl

theorem legible_dot (blank : Bool) {c : Char} {rest : List Char} (starts : isAsciiStart c = true) :
    (markWord .dot blank).Legible (c :: rest) := by
  obtain ⟨-, -, -, -, -, -, digit, dot, -, -⟩ := isAsciiStart_spec starts
  refine legible_mark .dot blank ⟨'.', [], rfl, by decide +kernel, .inr (by simp [digit])⟩ ?_
  have only : Punctuator.all.filter (·.begins ('.' :: c :: rest)) = [.dot] := by
    simp [Punctuator.all, Punctuator.begins, Punctuator.chars, List.isPrefixOf, dot.symm]
  change Punctuator.longest? ('.' :: c :: rest) = _
  rw [Punctuator.longest?, only]
  rfl

theorem legible_questionDot (blank : Bool) {c : Char} {rest : List Char}
    (digit : c.isDigit = false) : (markWord .questionDot blank).Legible (c :: rest) := by
  refine legible_mark .questionDot blank
    ⟨'?', ['.'], rfl, by decide +kernel, .inl (by decide)⟩ ?_
  have only : Punctuator.all.filter (·.begins ('?' :: '.' :: c :: rest)) =
      [.questionDot, .question] := by
    simp [Punctuator.all, Punctuator.begins, Punctuator.chars, List.isPrefixOf, digit]
  change Punctuator.longest? ('?' :: '.' :: c :: rest) = _
  rw [Punctuator.longest?, only]
  rfl

theorem legible_dots (blank : Bool) (rest : List Char) :
    (markWord .dotDotDot blank).Legible rest :=
  legible_mark .dotDotDot blank ⟨'.', ['.', '.'], rfl, by decide +kernel, .inr rfl⟩ rfl

/-- Marks that no longer one begins with. -/
def isAlone : Punctuator → Bool
  | .openBrace | .closeBrace | .openBracket | .closeBracket | .openParen | .closeParen | .semicolon
  | .comma | .colon => true
  | _ => false

theorem legible_alone {p : Punctuator} (alone : isAlone p = true) (blank : Bool)
    (rest : List Char) : (markWord p blank).Legible rest := by
  unfold isAlone at alone
  split at alone
  · exact legible_mark .openBrace blank ⟨'{', [], rfl, by decide +kernel, .inl (by decide)⟩ rfl
  · exact legible_mark .closeBrace blank ⟨'}', [], rfl, by decide +kernel, .inl (by decide)⟩ rfl
  · exact legible_mark .openBracket blank ⟨'[', [], rfl, by decide +kernel, .inl (by decide)⟩ rfl
  · exact legible_mark .closeBracket blank ⟨']', [], rfl, by decide +kernel, .inl (by decide)⟩ rfl
  · exact legible_mark .openParen blank ⟨'(', [], rfl, by decide +kernel, .inl (by decide)⟩ rfl
  · exact legible_mark .closeParen blank ⟨')', [], rfl, by decide +kernel, .inl (by decide)⟩ rfl
  · exact legible_mark .semicolon blank ⟨';', [], rfl, by decide +kernel, .inl (by decide)⟩ rfl
  · exact legible_mark .comma blank ⟨',', [], rfl, by decide +kernel, .inl (by decide)⟩ rfl
  · exact legible_mark .colon blank ⟨':', [], rfl, by decide +kernel, .inl (by decide)⟩ rfl
  · cases alone

theorem legible_equals (blank : Bool) (rest : List Char) :
    (markWord .equals blank).Legible (' ' :: rest) :=
  legible_mark .equals blank ⟨'=', [], rfl, by decide +kernel, .inl (by decide)⟩ rfl

end PathGuard
