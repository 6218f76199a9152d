import PathGuard.Proofs.Token.Word
/-!
# Reading goes forward

Whatever is read of a text, the reading stops at a place of that text and not before the place where
it began, and every piece but the end of the text takes at least one character. So the tokens that a
lexer comes to lie behind each other, at ends of characters.
-/

namespace PathGuard

namespace Cursor

/-! ### Places behind each other -/

/-- Whether reading character by character from one place comes to another one. -/
inductive Reaches : Cursor → Cursor → Prop where
  | refl (c : Cursor) : Reaches c c
  | step {offset : Nat} {ch : Char} {rest : List Char} {c : Cursor}
      (later : Reaches ⟨offset + ch.utf8Size, rest⟩ c) : Reaches ⟨offset, ch :: rest⟩ c

def Passes (c c' : Cursor) : Prop := c.rest ≠ [] ∧ c.next.Reaches c'

theorem Reaches.trans {c c' c'' : Cursor} (h : c.Reaches c') (h' : c'.Reaches c'') :
    c.Reaches c'' := by
  induction h with
  | refl => exact h'
  | step later ih => exact .step (ih h')

theorem reaches_next (c : Cursor) : c.Reaches c.next := by
  obtain ⟨offset, rest⟩ := c
  cases rest with
  | nil => exact .refl _
  | cons ch rest => exact .step (.refl _)

theorem Passes.reaches {c c' : Cursor} (h : c.Passes c') : c.Reaches c' :=
  (reaches_next c).trans h.2

theorem Passes.trans {c c' c'' : Cursor} (h : c.Passes c') (h' : c'.Reaches c'') :
    c.Passes c'' := ⟨h.1, h.2.trans h'⟩

theorem passes_next {c : Cursor} {ch : Char} {rest : List Char} (more : c.rest = ch :: rest) :
    c.Passes c.next := ⟨by simp [more], .refl _⟩

theorem Reaches.offset_le {c c' : Cursor} (h : c.Reaches c') : c.offset ≤ c'.offset := by
  induction h with
  | refl => exact Nat.le_refl _
  | step later ih =>
    dsimp only at ih ⊢
    omega

theorem Reaches.length_le {c c' : Cursor} (h : c.Reaches c') :
    c'.rest.length ≤ c.rest.length := by
  induction h with
  | refl => exact Nat.le_refl _
  | step later ih => exact Nat.le_succ_of_le ih

theorem Passes.offset_lt {c c' : Cursor} (h : c.Passes c') : c.offset < c'.offset := by
  obtain ⟨offset, rest⟩ := c
  obtain ⟨more, later⟩ := h
  cases rest with
  | nil => exact absurd rfl more
  | cons ch rest =>
    have le : offset + ch.utf8Size ≤ c'.offset := later.offset_le
    have positive := ch.utf8Size_pos
    dsimp only
    omega

theorem Passes.length_lt {c c' : Cursor} (h : c.Passes c') :
    c'.rest.length < c.rest.length := by
  obtain ⟨offset, rest⟩ := c
  obtain ⟨more, later⟩ := h
  cases rest with
  | nil => exact absurd rfl more
  | cons ch rest => exact Nat.lt_succ_of_le later.length_le

theorem Reaches.split {c c' : Cursor} (h : c.Reaches c') :
    ∃ cs, c.rest = cs ++ c'.rest ∧ c'.offset = c.offset + byteLength cs := by
  induction h with
  | refl c => exact ⟨[], rfl, rfl⟩
  | @step offset ch rest c later ih =>
    obtain ⟨cs, split, there⟩ := ih
    refine ⟨ch :: cs, by rw [List.cons_append]; exact congrArg _ split, ?_⟩
    rw [there, byteLength, Nat.add_assoc]

end Cursor

open Cursor

theorem dropBytes_byteLength (cs rest : List Char) :
    dropBytes (cs ++ rest) (byteLength cs) = some rest := by
  induction cs with
  | nil => cases rest <;> rfl
  | cons c cs ih =>
    have positive := c.utf8Size_pos
    obtain ⟨n, size⟩ : ∃ n, byteLength (c :: cs) = n + 1 :=
      ⟨byteLength (c :: cs) - 1, by rw [byteLength]; omega⟩
    rw [size, List.cons_append, dropBytes, ← size, byteLength, if_pos (Nat.le_add_right _ _),
      Nat.add_sub_cancel_left]
    exact ih

theorem Cursor.Reaches.seek {text : List Char} {c : Cursor}
    (h : (Cursor.start text).Reaches c) : Cursor.seek text c.offset = c := by
  obtain ⟨cs, split, there⟩ := h.split
  have offset : c.offset = byteLength cs := there.trans (Nat.zero_add _)
  have whole : text = cs ++ c.rest := split
  rw [Cursor.seek, offset, whole, dropBytes_byteLength, ← offset]
  rfl

def IsBoundary (text : List Char) (offset : Nat) : Prop :=
  ∃ before, before <+: text ∧ byteLength before = offset

theorem Cursor.Reaches.boundary {text : List Char} {c : Cursor}
    (h : (Cursor.start text).Reaches c) : IsBoundary text c.offset := by
  obtain ⟨cs, split, there⟩ := h.split
  exact ⟨cs, ⟨c.rest, split.symm⟩, (there.trans (Nat.zero_add _)).symm⟩

theorem IsBoundary.le {text : List Char} {offset : Nat} (h : IsBoundary text offset) :
    offset ≤ byteLength text := by
  obtain ⟨before, ⟨rest, rfl⟩, rfl⟩ := h
  rw [byteLength_append]
  exact Nat.le_add_right _ _

/-! ### Runs and escapes -/

theorem reaches_skip (n : Nat) (c : Cursor) : c.Reaches (c.skip n) := by
  induction n generalizing c with
  | zero => exact .refl c
  | succ n ih => exact (reaches_next c).trans (ih c.next)

theorem passes_skip {n : Nat} {c : Cursor} (more : c.rest ≠ []) : c.Passes (c.skip (n + 1)) :=
  ⟨more, reaches_skip n c.next⟩

theorem reaches_skipWhile (p : Char → Bool) (c : Cursor) : c.Reaches (c.skipWhile p) := by
  obtain ⟨offset, rest⟩ := c
  unfold Cursor.skipWhile
  dsimp only
  induction rest generalizing offset with
  | nil => exact .refl _
  | cons ch rest ih =>
    unfold Cursor.skipRun
    split
    · exact .step (ih _)
    · exact .refl _

theorem passes_skipWhile {p : Char → Bool} {c : Cursor} {ch : Char} {rest : List Char}
    (more : c.rest = ch :: rest) (first : p ch = true) : c.Passes (c.skipWhile p) := by
  have once : c.skipWhile p = c.next.skipWhile p := by
    rw [Cursor.next_of_cons more, Cursor.skipWhile, more, Cursor.skipRun, if_pos first]
    rfl
  rw [once]
  exact (passes_next more).trans (reaches_skipWhile p _)

theorem reaches_readHex (most count value : Nat) (c : Cursor) :
    c.Reaches (readHex most count value c).2.2 := by
  induction most generalizing count value c with
  | zero => exact .refl c
  | succ most ih =>
    unfold readHex
    split
    · exact (reaches_next c).trans (ih ..)
    · exact .refl c

theorem reaches_readHexNumber (least most : Nat) (c : Cursor) :
    c.Reaches (readHexNumber least most c).2 := reaches_readHex most 0 0 c

theorem reaches_readCodePoint (c : Cursor) : c.Reaches (readCodePoint c).stop := by
  unfold readCodePoint
  split
  · dsimp only
    split
    · exact (reaches_next c).trans ((reaches_readHexNumber ..).trans (reaches_next _))
    · exact .refl c
  · exact reaches_readHexNumber 4 4 c

theorem reaches_readEscape (c : Cursor) : c.Reaches (readEscape c).stop := by
  have next := reaches_next c
  unfold readEscape
  split
  · exact .refl c
  dsimp only
  split
  · exact next
  split
  · exact next
  split
  · have digits := next.trans (reaches_readHexNumber 2 2 c.next)
    split
    · next h => rwa [h] at digits
    · next h => rwa [h] at digits
  split
  · exact next.trans (reaches_readCodePoint _)
  split
  · dsimp only
    split
    · exact next.trans (reaches_next _)
    · exact next
  split
  · exact next
  · exact next

/-! ### Names, strings, templates, numbers -/

theorem reaches_readNameChars (bound : List Char) (c : Cursor) :
    c.Reaches (readNameChars bound c).stop := by
  induction bound generalizing c with
  | nil => exact .refl c
  | cons _ bound ih =>
    unfold readNameChars
    split
    · exact .refl c
    split
    · exact (reaches_next c).trans (ih _)
    split
    · have escape := (reaches_skip 2 c).trans (reaches_readCodePoint (c.skip 2))
      dsimp only
      split
      · exact escape.trans (ih _)
      · exact escape
    · exact .refl c

theorem isIdentifierPart_of_start {ch : Char} (starts : isIdentifierStart ch = true) :
    isIdentifierPart ch = true := by
  rw [isIdentifierPart, starts]
  rfl

theorem passes_readName {c : Cursor} {ch : Char} {rest : List Char} (more : c.rest = ch :: rest)
    (first : isIdentifierPart ch = true ∨ ch = '\\' ∧ rest.head? = some 'u') :
    c.Passes (readName c).stop := by
  have there : c.rest ≠ [] := by simp [more]
  unfold readName
  rw [more, readNameChars, more]
  dsimp only
  split
  · exact (passes_next more).trans (reaches_readNameChars ..)
  · next notPart =>
    rcases first with part | ⟨backslash, escape⟩
    · exact absurd part notPart
    · rw [if_pos (by simp [backslash, escape])]
      have digits := (passes_skip there).trans (reaches_readCodePoint (c.skip 2))
      split
      · exact digits.trans (reaches_readNameChars ..)
      · exact digits

theorem reaches_readStringContent (quote : Char) (bound : List Char) (c : Cursor) :
    c.Reaches (readStringContent quote bound c).stop := by
  induction bound generalizing c with
  | nil => exact .refl c
  | cons _ bound ih =>
    unfold readStringContent
    split
    · exact .refl c
    split
    · exact .refl c
    split
    · exact reaches_next c
    split
    · exact (reaches_next c).trans ((reaches_readEscape _).trans (ih _))
    · exact (reaches_next c).trans (ih _)

theorem reaches_readTemplateContent (bound : List Char) (c : Cursor) :
    c.Reaches (readTemplateContent bound c).content.stop := by
  induction bound generalizing c with
  | nil => exact .refl c
  | cons _ bound ih =>
    unfold readTemplateContent
    split
    · exact .refl c
    split
    · exact reaches_next c
    split
    · exact reaches_skip 2 c
    split
    · exact (reaches_next c).trans ((reaches_readEscape _).trans (ih _))
    split
    · refine Reaches.trans ?_ (ih _)
      split
      · exact reaches_skip 2 c
      · exact reaches_next c
    · exact (reaches_next c).trans (ih _)

theorem reaches_readTemplate (starts : Bool) (c : Cursor) :
    c.Reaches (readTemplate starts c).stop := reaches_readTemplateContent _ c

theorem reaches_skipExponent? {c stop : Cursor} (h : skipExponent? c = some stop) :
    c.Reaches stop := by
  have digits (signed : Bool) : c.Reaches (if signed = true then c.skip 2 else c.next) := by
    cases signed
    · exact reaches_next c
    · exact reaches_skip 2 c
  unfold skipExponent? at h
  rw [Option.ite_none_right_eq_some] at h
  dsimp only at h
  rw [Option.ite_none_right_eq_some] at h
  obtain ⟨-, -, found⟩ := h
  exact Option.some.inj found ▸ (digits _).trans (reaches_skipWhile _ _)

theorem passes_skipDecimal {c : Cursor} {ch : Char} {rest : List Char} (more : c.rest = ch :: rest)
    (first : isDigitOf 10 ch = true ∨ ch = '.' ∧ isDigitOf 10 '.' = false) :
    c.Passes (skipDecimal c).1 := by
  have number : c.Passes (if (skipDigits 10 c).peek = some '.' then
      skipDigits 10 (skipDigits 10 c).next else skipDigits 10 c) := by
    rcases first with digit | ⟨dot, other⟩
    · have whole : c.Passes (skipDigits 10 c) := passes_skipWhile more (by simp [digit])
      split
      · exact whole.trans ((reaches_next _).trans (reaches_skipWhile _ _))
      · exact whole
    · have none_ : skipDigits 10 c = c := by
        rw [skipDigits, Cursor.skipWhile, more, Cursor.skipRun, if_neg (by simp [dot, other]), ← more]
      rw [none_, Cursor.peek, more, dot, List.head?_cons, if_pos rfl]
      exact (passes_next more).trans (reaches_skipWhile _ _)
  unfold skipDecimal
  dsimp only
  split
  · next stop exponent => exact number.trans (reaches_skipExponent? exponent)
  · exact number

theorem isDigitOf_ten {ch : Char} (digit : ch.isDigit = true) : isDigitOf 10 ch = true := by
  have bounds := (Bool.and_eq_true_iff.1 digit).2
  rw [isDigitOf, hexValue?, if_pos digit, Option.any_some, decide_eq_true_iff]
  have upper : ch.toNat ≤ 57 := of_decide_eq_true bounds
  change ch.toNat - 48 < 10
  omega

theorem passes_readNumber {c : Cursor} {ch : Char} {rest : List Char} (more : c.rest = ch :: rest)
    (first : ch.isDigit = true ∨ ch = '.') : c.Passes (readNumber c).stop := by
  have there : c.rest ≠ [] := by simp [more]
  have begins : isDigitOf 10 ch = true ∨ ch = '.' ∧ isDigitOf 10 '.' = false :=
    first.imp isDigitOf_ten fun dot => ⟨dot, by decide⟩
  have ended {digits : Cursor} (h : c.Passes digits) (big : Prop) [Decidable big] :
      c.Passes (if big then digits.next else digits) := by
    split
    · exact h.trans (reaches_next _)
    · exact h
  unfold readNumber
  dsimp only
  cases numberBase? c.rest with
  | some base => exact ended ((passes_skip there).trans (reaches_skipWhile _ _)) _
  | none => exact ended (passes_skipDecimal more begins) _

/-! ### Marks -/

theorem chars_ne_nil (p : Punctuator) : p.chars ≠ [] := by cases p <;> exact List.cons_ne_nil _ _

theorem passes_readMark {c : Cursor} (more : c.rest ≠ []) : c.Passes (readMark c).stop := by
  unfold readMark
  split
  · next p _ =>
    obtain ⟨ch, rest, chars⟩ := List.exists_cons_of_ne_nil (chars_ne_nil p)
    rw [chars]
    exact passes_skip more
  · exact ⟨more, .refl _⟩

theorem begins_of_longest? {text : List Char} {p : Punctuator}
    (h : Punctuator.longest? text = some p) : p.begins text = true := by
  refine List.foldlRecOn (motive := fun best => ∀ q, best = some q → q.begins text = true)
    _ _ (fun q hq => ?_) (fun best sofar q hq r hr => ?_) p h
  · cases hq
  have first : q.begins text = true := (List.mem_filter.1 hq).2
  cases best with
  | none => exact Option.some.inj hr ▸ first
  | some b =>
    dsimp only at hr
    split at hr
    · exact Option.some.inj hr ▸ first
    · exact sofar r hr

/-! ### Pieces -/

theorem reaches_blockCommentEnd (broken : Bool) (offset : Nat) (rest : List Char) :
    Reaches ⟨offset, rest⟩ (blockCommentEnd broken offset rest).1 := by
  induction broken, offset, rest using blockCommentEnd.induct with
  | case1 broken offset => exact .refl _
  | case2 broken offset rest => exact .step (.step (.refl _))
  | case3 broken offset ch rest other ih =>
    rw [blockCommentEnd]
    · exact .step ih
    · exact other

/-- How the piece at a place is read, by the characters that it begins with. -/
inductive Begun (c : Cursor) : Prop where
  | shebang (begins : ['#', '!'].isPrefixOf c.rest = true) (read : readPiece c = readLineComment c)
  | endOfFile (ends : c.rest = []) (read : readPiece c = .plain .endOfFile c)
  | newLine {ch : Char} {rest : List Char} (here : c.rest = ch :: rest)
      (breaks : isLineTerminator ch = true) (read : readPiece c = readNewLine c)
  | whitespace {ch : Char} {rest : List Char} (here : c.rest = ch :: rest)
      (blank : isInlineBlank ch = true) (read : readPiece c = readWhitespace c)
  | lineComment {rest : List Char} (here : c.rest = '/' :: '/' :: rest)
      (read : readPiece c = readLineComment c)
  | blockComment {rest : List Char} (here : c.rest = '/' :: '*' :: rest)
      (read : readPiece c = readBlockComment c)
  | string {quote : Char} {rest : List Char} (here : c.rest = quote :: rest)
      (read : readPiece c = readString quote c)
  | template {ch : Char} {rest : List Char} (here : c.rest = ch :: rest)
      (read : readPiece c = readTemplate true c.next)
  | number {ch : Char} {rest : List Char} (here : c.rest = ch :: rest)
      (digit : ch.isDigit = true ∨ ch = '.') (read : readPiece c = readNumber c)
  | privateName {rest : List Char} (here : c.rest = '#' :: rest)
      (read : readPiece c = readPrivateIdentifier c)
  | name {ch : Char} {rest : List Char} (here : c.rest = ch :: rest)
      (begins : isIdentifierStart ch = true ∨ ch = '\\' ∧ rest.head? = some 'u')
      (read : readPiece c = readIdentifier c)
  | mark {ch : Char} {rest : List Char} (here : c.rest = ch :: rest) (read : readPiece c = readMark c)

theorem begun (c : Cursor) : Begun c := by
  have read : readPiece c = readPiece c := rfl
  conv at read => rhs; unfold readPiece
  -- the cases stand in the order in which a piece is told from what it begins with
  by_cases shebang : (decide (c.offset = 0) && ['#', '!'].isPrefixOf c.rest) = true
  · rw [if_pos shebang] at read
    exact .shebang (Bool.and_eq_true_iff.1 shebang).2 read
  rw [if_neg shebang] at read
  cases here : c.rest with
  | nil =>
    simp only [here] at read
    exact .endOfFile here read
  | cons ch rest =>
    simp only [here] at read
    split at read
    · next breaks => exact .newLine here breaks read
    split at read
    · next blank => exact .whitespace here blank read
    split at read
    · next slashes =>
      rw [Bool.and_eq_true, decide_eq_true_iff, decide_eq_true_iff] at slashes
      obtain ⟨after, second⟩ := List.head?_eq_some_iff.1 slashes.2
      exact .lineComment (by rw [here, slashes.1, second]) read
    split at read
    · next opens =>
      rw [Bool.and_eq_true, decide_eq_true_iff, decide_eq_true_iff] at opens
      obtain ⟨after, second⟩ := List.head?_eq_some_iff.1 opens.2
      exact .blockComment (by rw [here, opens.1, second]) read
    split at read
    · exact .string here read
    split at read
    · exact .template here read
    split at read
    · next digit =>
      rw [Bool.or_eq_true, Bool.and_eq_true, decide_eq_true_iff] at digit
      exact .number here (digit.imp id And.left) read
    split at read
    · next hash => exact .privateName (by rw [here, hash]) read
    split at read
    · next name =>
      refine .name here ?_ read
      rw [Bool.or_eq_true] at name
      rcases name with starts | escape
      · exact .inl starts
      · cases rest with
        | nil => simp [atCodePointEscape, List.isPrefixOf] at escape
        | cons u rest =>
          simp only [atCodePointEscape, List.isPrefixOf, Bool.and_true, Bool.and_eq_true,
            beq_iff_eq] at escape
          exact .inr ⟨escape.1.symm, by rw [List.head?_cons, ← escape.2]⟩
    · exact .mark here read

theorem passes_readPiece {c : Cursor} (more : c.rest ≠ []) : c.Passes (readPiece c).stop := by
  have line {ch : Char} {rest : List Char} (here : c.rest = ch :: rest)
      (noBreak : (!(ch == '\n' || ch == '\r')) = true) : c.Passes (readLineComment c).stop :=
    passes_skipWhile here noBreak
  cases begun c with
  | shebang begins read =>
    rw [read]
    obtain ⟨ch, rest, here⟩ := List.exists_cons_of_ne_nil more
    rw [here, List.isPrefixOf, Bool.and_eq_true_iff] at begins
    exact line here (by rw [← eq_of_beq begins.1]; decide)
  | endOfFile ends => exact absurd ends more
  | newLine here _ read =>
    rw [read, readNewLine]
    dsimp only
    split
    · exact passes_skip more
    · exact passes_next here
  | whitespace here blank read =>
    rw [read]
    exact passes_skipWhile here blank
  | lineComment here read =>
    rw [read]
    exact line here (by decide)
  | blockComment here read =>
    rw [read]
    exact (passes_skip more).trans (reaches_blockCommentEnd ..)
  | string here read =>
    rw [read]
    exact (passes_next here).trans (reaches_readStringContent ..)
  | template here read =>
    rw [read]
    exact (passes_next here).trans (reaches_readTemplate ..)
  | number here digit read =>
    rw [read]
    exact passes_readNumber here digit
  | privateName here read =>
    rw [read, readPrivateIdentifier]
    split
    · exact (passes_next here).trans (reaches_readNameChars ..)
    · exact passes_next here
  | name here begins read =>
    rw [read]
    exact passes_readName here (begins.imp_left isIdentifierPart_of_start)
  | mark here read =>
    rw [read]
    exact passes_readMark more

theorem readPiece_nil {c : Cursor} (none_ : c.rest = []) : readPiece c = .plain .endOfFile c := by
  unfold readPiece
  rw [none_]
  simp [List.isPrefixOf]

theorem reaches_readPiece (c : Cursor) : c.Reaches (readPiece c).stop := by
  by_cases none_ : c.rest = []
  · rw [readPiece_nil none_]
    exact .refl c
  · exact (passes_readPiece none_).reaches

theorem readIdentifier_kind (c : Cursor) :
    (readIdentifier c).kind = .identifier ∨ ∃ w, (readIdentifier c).kind = .word w := by
  unfold readIdentifier
  dsimp only
  split
  · exact .inl rfl
  · split
    · exact .inr ⟨_, rfl⟩
    · exact .inl rfl

theorem mark_of_readPiece {c : Cursor} {p : Punctuator} (mark : (readPiece c).kind = .mark p) :
    p.begins c.rest = true ∧ (readPiece c).stop = c.skip p.chars.length := by
  cases begun c with
  | shebang _ read | endOfFile _ read | newLine _ _ read | whitespace _ _ read
  | lineComment _ read | blockComment _ read | string _ read | template _ read
  | number _ _ read =>
    rw [read] at mark
    cases mark
  | privateName _ read =>
    rw [read, readPrivateIdentifier] at mark
    split at mark <;> cases mark
  | name _ _ read =>
    obtain name | ⟨w, word⟩ := readIdentifier_kind c
    · cases (read ▸ mark).symm.trans name
    · cases (read ▸ mark).symm.trans word
  | mark _ read =>
    rw [read, readMark] at mark ⊢
    split at mark
    · next q found =>
      obtain rfl : q = p := by simpa [Piece.plain] using mark
      exact ⟨begins_of_longest? found, rfl⟩
    · cases mark

theorem Punctuator.exists_of_begins {p : Punctuator} {text : List Char}
    (begins : p.begins text = true) : ∃ rest, text = p.chars ++ rest := by
  rw [Punctuator.begins, Bool.and_eq_true] at begins
  obtain ⟨rest, written⟩ := List.isPrefixOf_iff_prefix.1 begins.1
  exact ⟨rest, written.symm⟩

theorem Cursor.nextByte_of_closeBrace {c : Cursor} (text : List Char)
    (mark : (readPiece c).kind = .mark .closeBrace) :
    c.nextByte text = c.next ∧ ∃ rest, c.rest = '}' :: rest := by
  obtain ⟨rest, written⟩ := Punctuator.exists_of_begins (mark_of_readPiece mark).1
  have first : c.rest = '}' :: rest := written
  refine ⟨?_, rest, first⟩
  rw [Cursor.nextByte, first, Cursor.next_of_cons first]
  rfl

/-! ### Regular expressions -/

theorem reaches_regularExpressionEnd (inClass : Bool) (offset : Nat) (rest : List Char) :
    Reaches ⟨offset, rest⟩ (Lexer.regularExpressionEnd inClass offset rest).1 := by
  fun_induction Lexer.regularExpressionEnd inClass offset rest with
  | case1 inClass offset => exact .refl _
  | case2 inClass offset ch rest ends => exact .refl _
  | case3 inClass offset => exact .step (.refl _)
  | case4 inClass offset escaped after ends => exact .step (.refl _)
  | case5 inClass offset escaped after _ _ ih => exact .step (.step ih)
  | case6 inClass offset ch rest => exact .step (.refl _)
  | case7 inClass offset ch rest _ _ _ ih => exact .step ih

/-! ### Tokens -/

namespace Lexer

/-- Whether a lexer stands at a token of a text. Another reading of the token, as a regular
expression or as the rest of a template, makes it a literal; any other token is the piece that
begins there. -/
structure Sits (text : List Char) (l : Lexer) : Prop where
  text_eq : l.text = text
  skips : l.skipTrivia = true
  first : (Cursor.start text).Reaches l.first
  here : l.first.Reaches l.here
  more : l.kind ≠ .endOfFile → l.first.Passes l.here
  genuine : (∃ k, l.kind = .literal k) ∨
    (readPiece l.first).kind = l.kind ∧ (readPiece l.first).stop = l.here

variable {text : List Char} {l l' : Lexer}

theorem scan_congr (same : l.text = l'.text) (skips : l.skipTrivia = l'.skipTrivia)
    (here : l.here = l'.here) : l.scan = l'.scan := by
  unfold scan
  rw [same, skips, here]

theorem reaches_skipPieces (bound : List Char) (c : Cursor) (flags : TokenFlags) :
    c.Reaches (skipPieces bound c flags).1 ∧
      (skipPieces bound c flags).2.1 = readPiece (skipPieces bound c flags).1 := by
  induction bound generalizing c flags with
  | nil => exact ⟨.refl c, rfl⟩
  | cons _ bound ih =>
    unfold skipPieces
    dsimp only
    split
    · obtain ⟨later, piece⟩ := ih (readPiece c).stop (flags.union (readPiece c).flags)
      exact ⟨(reaches_readPiece c).trans later, piece⟩
    · exact ⟨.refl c, rfl⟩

theorem scan_spec (l : Lexer) :
    ∃ c flags, l.here.Reaches c ∧ l.scan =
      { l with
        fullStart := l.here.offset
        first := c
        here := (readPiece c).stop
        kind := (readPiece c).kind
        value := (readPiece c).value
        flags := flags } := by
  unfold scan
  cases l.skipTrivia with
  | false => exact ⟨l.here, _, .refl _, rfl⟩
  | true =>
    obtain ⟨later, piece⟩ := reaches_skipPieces l.here.rest l.here .none
    rw [if_pos rfl]
    generalize skipPieces l.here.rest l.here .none = read at later piece ⊢
    obtain ⟨c, p, flags⟩ := read
    obtain rfl : p = readPiece c := piece
    exact ⟨c, _, later, rfl⟩

theorem scan_reads (l : Lexer) :
    l.here.Reaches l.scan.first ∧ l.scan.kind = (readPiece l.scan.first).kind ∧
      l.scan.here = (readPiece l.scan.first).stop := by
  obtain ⟨c, flags, later, scanned⟩ := scan_spec l
  rw [scanned]
  exact ⟨later, rfl, rfl⟩

theorem passes_scan (goesOn : l.scan.kind ≠ .endOfFile) : l.scan.first.Passes l.scan.here := by
  obtain ⟨-, kind, stop⟩ := scan_reads l
  rw [stop]
  apply passes_readPiece
  intro none_
  apply goesOn
  rw [kind, readPiece_nil none_]
  rfl

theorem sits_scan (same : l.text = text) (skips : l.skipTrivia = true)
    (here : (Cursor.start text).Reaches l.here) :
    l.scan.Sits text ∧ l.here.Reaches l.scan.first := by
  obtain ⟨behind, kind, stop⟩ := scan_reads l
  exact ⟨{
    text_eq := same
    skips := skips
    first := here.trans behind
    here := stop ▸ reaches_readPiece _
    more := passes_scan
    genuine := .inr ⟨kind.symm, stop.symm⟩ }, behind⟩

namespace Sits

theorem piece (h : l.Sits text) (other : ∀ k, l.kind ≠ .literal k) :
    (readPiece l.first).kind = l.kind ∧ (readPiece l.first).stop = l.here :=
  h.genuine.resolve_left fun literal => literal.elim other

theorem scan (h : l.Sits text) : l.scan.Sits text ∧ l.here.Reaches l.scan.first :=
  sits_scan h.text_eq h.skips (h.first.trans h.here)

theorem rescanSlash (h : l.Sits text) : l.rescanSlash.Sits text := by
  unfold Lexer.rescanSlash
  split
  · next slash =>
    have notEnd : l.kind ≠ .endOfFile := by
      intro ended
      simp [ended] at slash
    have body := (h.more notEnd).1
    have stop : l.first.Passes ((regularExpressionEnd false l.first.next.offset
        l.first.next.rest).1.skipWhile isIdentifierPart) :=
      ⟨body, (reaches_regularExpressionEnd _ _ _).trans (reaches_skipWhile _ _)⟩
    exact ⟨h.text_eq, h.skips, h.first, stop.reaches, fun _ => stop, .inl ⟨_, rfl⟩⟩
  · exact h

theorem rescanTemplate (h : l.Sits text) (brace : l.kind = .mark .closeBrace) :
    l.rescanTemplate.Sits text := by
  have mark : (readPiece l.first).kind = .mark .closeBrace := by
    rw [(h.piece (by simp [brace])).1, brace]
  obtain ⟨next, rest, first⟩ := Cursor.nextByte_of_closeBrace l.text mark
  have stop : l.first.Passes (readTemplate false (l.first.nextByte l.text)).stop := by
    rw [next]
    exact (passes_next first).trans (reaches_readTemplate false _)
  exact ⟨h.text_eq, h.skips, h.first, stop.reaches, fun _ => stop, .inl ⟨_, rfl⟩⟩

end Sits

end Lexer

end PathGuard
