import PathGuard.Proofs.Token.LineBreak
/-!
# Where a regular expression ends

A slash that stands behind a backslash or in a class belongs to the body of a regular expression. So
another reading of the slash in front of a body takes the whole body, the slash behind it and the
letters that follow; and where that slash is missing, it takes the body and says so.
-/

namespace PathGuard

/-- Whether a text may stand between the brackets of a class: characters other than a bracket that
closes, and escapes. -/
inductive ClassText : List Char → Prop where
  | nil : ClassText []
  | plain {c : Char} {text : List Char} (other : c ≠ ']' ∧ c ≠ '\\')
      (inLine : isLineTerminator c = false) (later : ClassText text) : ClassText (c :: text)
  | escaped {c : Char} {text : List Char} (inLine : isLineTerminator c = false)
      (later : ClassText text) : ClassText ('\\' :: c :: text)

/-- Whether a text may stand between the slashes of a regular expression: characters other than a
slash and a bracket that opens, escapes, and classes. -/
inductive RegularBody : List Char → Prop where
  | nil : RegularBody []
  | plain {c : Char} {text : List Char} (other : c ≠ '/' ∧ c ≠ '\\' ∧ c ≠ '[')
      (inLine : isLineTerminator c = false) (later : RegularBody text) : RegularBody (c :: text)
  | escaped {c : Char} {text : List Char} (inLine : isLineTerminator c = false)
      (later : RegularBody text) : RegularBody ('\\' :: c :: text)
  | classed {inside text : List Char} (class_ : ClassText inside) (later : RegularBody text) :
      RegularBody ('[' :: (inside ++ ']' :: text))

variable {inside body text rest : List Char} {c : Char} {l : Lexer}

/-! ### The search for the end -/

namespace Lexer

theorem regularExpressionEnd_plain {inClass : Bool} (inLine : isLineTerminator c = false)
    (noEscape : c ≠ '\\') (goesOn : c = '/' → inClass = true) (offset : Nat) (rest : List Char) :
    regularExpressionEnd inClass offset (c :: rest) =
      regularExpressionEnd (if c = '[' then true else if c = ']' then false else inClass)
        (offset + c.utf8Size) rest := by
  have noEnd : ¬(decide (c = '/') && !inClass) = true := by
    rw [Bool.and_eq_true, decide_eq_true_iff]
    rintro ⟨slash, outside⟩
    rw [goesOn slash] at outside
    cases outside
  conv_lhs => rw [regularExpressionEnd.eq_def]
  simp only [inLine, noEscape, noEnd, Bool.false_eq_true, if_false]

theorem regularExpressionEnd_escaped (inClass : Bool) (inLine : isLineTerminator c = false)
    (offset : Nat) (rest : List Char) :
    regularExpressionEnd inClass offset ('\\' :: c :: rest) =
      regularExpressionEnd inClass (offset + byteLength ['\\', c]) rest := by
  have noLine : isLineTerminator '\\' = false := by decide
  conv_lhs => rw [regularExpressionEnd.eq_def]
  simp only [noLine, inLine, Bool.false_eq_true, if_false, if_true, byteLength, Nat.add_zero,
    Nat.add_assoc]

theorem regularExpressionEnd_slash (offset : Nat) (rest : List Char) :
    regularExpressionEnd false offset ('/' :: rest) = (⟨offset + 1, rest⟩, false) := by
  rw [regularExpressionEnd.eq_def]
  rfl

theorem regularExpressionEnd_open (inClass : Bool)
    (ends : ∀ c ∈ rest.head?, isLineTerminator c = true) (offset : Nat) :
    regularExpressionEnd inClass offset rest = (⟨offset, rest⟩, true) := by
  rw [regularExpressionEnd.eq_def]
  cases rest with
  | nil => rfl
  | cons c rest =>
    dsimp only
    rw [if_pos (ends c rfl)]

theorem ClassText.read (h : ClassText inside) (offset : Nat) (rest : List Char) :
    regularExpressionEnd true offset (inside ++ rest) =
      regularExpressionEnd true (offset + byteLength inside) rest := by
  induction h generalizing offset with
  | nil => rfl
  | @plain c text other inLine later ih =>
    have still : (if c = '[' then true else if c = ']' then false else true) = true := by
      rw [if_neg other.1, ite_self]
    rw [List.cons_append, regularExpressionEnd_plain inLine other.2 (fun _ => rfl), still, ih,
      byteLength, Nat.add_assoc]
  | @escaped c text inLine later ih =>
    rw [List.cons_append, List.cons_append, regularExpressionEnd_escaped true inLine, ih,
      Nat.add_assoc, ← byteLength_append]
    rfl

theorem RegularBody.read (h : RegularBody body) (offset : Nat) (rest : List Char) :
    regularExpressionEnd false offset (body ++ rest) =
      regularExpressionEnd false (offset + byteLength body) rest := by
  induction h generalizing offset with
  | nil => rfl
  | @plain c text other inLine later ih =>
    have outside : (if c = '[' then true else if c = ']' then false else false) = false := by
      rw [if_neg other.2.2, ite_self]
    rw [List.cons_append, regularExpressionEnd_plain inLine other.2.1
      (fun slash => absurd slash other.1), outside, ih, byteLength, Nat.add_assoc]
  | @escaped c text inLine later ih =>
    rw [List.cons_append, List.cons_append, regularExpressionEnd_escaped false inLine, ih,
      Nat.add_assoc, ← byteLength_append]
    rfl
  | @classed inside text class_ later ih =>
    have opens : regularExpressionEnd false offset ('[' :: (inside ++ (']' :: text ++ rest))) =
        regularExpressionEnd true (offset + 1) (inside ++ (']' :: text ++ rest)) :=
      regularExpressionEnd_plain (c := '[') (by decide) (by decide) (by decide) offset _
    have closes : regularExpressionEnd true (offset + 1 + byteLength inside) (']' :: text ++ rest) =
        regularExpressionEnd false (offset + 1 + byteLength inside + 1) (text ++ rest) :=
      regularExpressionEnd_plain (c := ']') (by decide) (by decide) (by decide) _ _
    have size : offset + 1 + byteLength inside + 1 + byteLength text =
        offset + byteLength ('[' :: (inside ++ ']' :: text)) := by
      have one : '['.utf8Size = 1 := by decide
      have one' : ']'.utf8Size = 1 := by decide
      rw [byteLength, byteLength_append, byteLength, one, one']
      omega
    rw [List.cons_append, List.append_assoc, opens, ClassText.read class_, closes, ih, size]

end Lexer

/-! ### The slash in front -/

theorem readPiece_slash (offset : Nat) (noComment : c ≠ '/' ∧ c ≠ '*') (rest : List Char) :
    ∃ p stop, readPiece ⟨offset, '/' :: c :: rest⟩ = .plain (.mark p) stop ∧
      (p = .slash ∨ p = .slashEquals) := by
  have noShebang : ['#', '!'].isPrefixOf ('/' :: c :: rest) = false := by
    simp [List.isPrefixOf]
  have noLine : isLineTerminator '/' = false := by decide
  have noBlank : isInlineBlank '/' = false := by decide
  have noStart : isIdentifierStart '/' = false := by decide +kernel
  have noEscape : atCodePointEscape ('/' :: c :: rest) = false := by
    simp [atCodePointEscape, List.isPrefixOf]
  have mark : readPiece ⟨offset, '/' :: c :: rest⟩ = readMark ⟨offset, '/' :: c :: rest⟩ := by
    unfold readPiece
    simp [noShebang, noLine, noBlank, noStart, noEscape, noComment]
  rw [mark, readMark]
  by_cases equals : c = '='
  · have only : Punctuator.all.filter (·.begins ('/' :: c :: rest)) = [.slash, .slashEquals] := by
      subst equals
      simp [Punctuator.all, Punctuator.begins, Punctuator.chars, List.isPrefixOf]
    rw [Punctuator.longest?, only]
    exact ⟨.slashEquals, _, rfl, .inr rfl⟩
  · have only : Punctuator.all.filter (·.begins ('/' :: c :: rest)) = [.slash] := by
      simp [Punctuator.all, Punctuator.begins, Punctuator.chars, List.isPrefixOf, Ne.symm equals]
    rw [Punctuator.longest?, only]
    exact ⟨.slash, _, rfl, .inl rfl⟩

def regularToken (start : Nat) (text : List Char) (open_ : Bool) : Token where
  kind := .literal .regularExpression
  fullStart := start
  start := start
  stop := start + byteLength text
  flags := { TokenFlags.none with unterminated := open_ }
  value := String.ofList text
  text := String.ofList text

theorem Lexer.rescanSlash_scan {stop : Cursor} {open_ : Bool} (noComment : c ≠ '/' ∧ c ≠ '*')
    (here : l.here.rest = '/' :: c :: rest) {behind : List Char}
    (split_ : '/' :: c :: rest = text ++ behind)
    (found : regularExpressionEnd false (l.here.offset + 1) (c :: rest) = (stop, open_))
    (letters : stop.skipWhile isIdentifierPart = ⟨l.here.offset + byteLength text, behind⟩) :
    l.scan.rescanSlash.token = regularToken l.here.offset text open_ ∧
      l.scan.rescanSlash.here = ⟨l.here.offset + byteLength text, behind⟩ := by
  obtain ⟨p, far, read, slash⟩ := readPiece_slash l.here.offset noComment rest
  rw [← here] at read
  have piece : readPiece l.here = .plain (.mark p) far := read
  have scanned := scan_eq (l := l) (by rw [piece]; rfl)
  rw [piece] at scanned
  have next : l.here.next = ⟨l.here.offset + 1, c :: rest⟩ := Cursor.next_of_cons here
  have again : (l.scan.kind = .mark .slash || l.scan.kind = .mark .slashEquals) = true := by
    rw [scanned]
    rcases slash with rfl | rfl <;> rfl
  have spelled : l.here.textTo (l.here.offset + byteLength text) = text :=
    Cursor.textTo_of_split (d := ⟨_, behind⟩) (here.trans split_) rfl
  rw [rescanSlash, if_pos again, scanned]
  dsimp only
  rw [next]
  dsimp only
  rw [found]
  dsimp only
  rw [letters, token, tokenText]
  dsimp only
  rw [spelled]
  exact ⟨rfl, rfl⟩

theorem skipWhile_append {p : Char → Bool} {taken : List Char} (all : ∀ c ∈ taken, p c = true)
    (ends : ∀ c ∈ rest.head?, p c = false) (offset : Nat) :
    (Cursor.mk offset (taken ++ rest)).skipWhile p = ⟨offset + byteLength taken, rest⟩ := by
  have none_ : rest.takeWhile p = [] ∧ rest.dropWhile p = rest := by
    cases rest with
    | nil => exact ⟨rfl, rfl⟩
    | cons c rest =>
      have stop := ends c rfl
      rw [List.takeWhile_cons, List.dropWhile_cons, stop]
      exact ⟨rfl, rfl⟩
  rw [Cursor.skipWhile, Cursor.skipRun_eq, List.takeWhile_append_of_pos all,
    List.dropWhile_append_of_pos all, none_.1, none_.2, List.append_nil]

theorem isIdentifierPart_of_isLineTerminator (ends : isLineTerminator c = true) :
    isIdentifierPart c = false := by
  simp only [isLineTerminator, Bool.or_eq_true, beq_iff_eq] at ends
  rcases ends with ((rfl | rfl) | rfl) | rfl
  all_goals decide +kernel

/-- Behind a slash and a body, with letters behind the slash that closes it, the other reading takes
all of them. Where a line or the text ends in place of that slash, it takes the body and is not
closed. -/
theorem Lexer.rescanSlash_regularBody (h : RegularBody body) (some_ : body ≠ [])
    (noComment : body.head? ≠ some '*') (l : Lexer) :
    (∀ letters rest, (∀ c ∈ letters, isIdentifierPart c = true) →
      (∀ c ∈ rest.head?, isIdentifierPart c = false) →
      let text := '/' :: (body ++ '/' :: letters)
      l.here.rest = text ++ rest →
        l.scan.rescanSlash.token = regularToken l.here.offset text false ∧
          l.scan.rescanSlash.here = ⟨l.here.offset + byteLength text, rest⟩) ∧
    ∀ rest, (∀ c ∈ rest.head?, isLineTerminator c = true) →
      let text := '/' :: body
      l.here.rest = text ++ rest →
        l.scan.rescanSlash.token = regularToken l.here.offset text true ∧
          l.scan.rescanSlash.here = ⟨l.here.offset + byteLength text, rest⟩ := by
  have slash (text : List Char) : byteLength ('/' :: text) = 1 + byteLength text := rfl
  obtain ⟨c, more, rfl⟩ := List.exists_cons_of_ne_nil some_
  -- with one of these behind it, the first slash would begin a comment
  have noSlash : c ≠ '/' ∧ c ≠ '*' := by
    refine ⟨?_, fun star => noComment (star ▸ rfl)⟩
    cases h with
    | plain other => exact other.1
    | escaped => decide
    | classed => decide
  constructor
  · intro letters rest parts ends text here
    have split_ : text ++ rest = '/' :: (c :: more ++ '/' :: (letters ++ rest)) := by
      simp only [text, List.cons_append, List.append_assoc]
    have found : regularExpressionEnd false (l.here.offset + 1)
        (c :: more ++ '/' :: (letters ++ rest)) =
          (⟨l.here.offset + 1 + byteLength (c :: more) + 1, letters ++ rest⟩, false) := by
      rw [RegularBody.read h]
      exact regularExpressionEnd_slash _ _
    have size : l.here.offset + 1 + byteLength (c :: more) + 1 + byteLength letters =
        l.here.offset + byteLength text := by
      rw [slash, byteLength_append, slash]
      omega
    apply rescanSlash_scan noSlash (here.trans split_) split_.symm found
    rw [skipWhile_append parts ends, size]
  · intro rest ends text here
    have found : regularExpressionEnd false (l.here.offset + 1) (c :: more ++ rest) =
        (⟨l.here.offset + 1 + byteLength (c :: more), rest⟩, true) := by
      rw [RegularBody.read h]
      exact regularExpressionEnd_open false ends _
    have noLetters : ∀ c ∈ rest.head?, isIdentifierPart c = false :=
      fun c first => isIdentifierPart_of_isLineTerminator (ends c first)
    have size : l.here.offset + 1 + byteLength (c :: more) = l.here.offset + byteLength text := by
      rw [slash, Nat.add_assoc]
    apply rescanSlash_scan noSlash here rfl found
    have stopped (offset : Nat) :
        (Cursor.mk offset ([] ++ rest)).skipWhile isIdentifierPart =
          ⟨offset + byteLength [], rest⟩ :=
      skipWhile_append (fun _ none_ => absurd none_ List.not_mem_nil) noLetters offset
    rw [← size]
    exact stopped _

/-- A body that begins with an equals sign, with a slash in a class and one behind a backslash: closed
and followed by letters, and at the end of a line. -/
theorem Lexer.rescanSlash_regularBody_equals :
    let body := ['=', '[', '/', '\\', ']', ']', '\\', '/', 'é']
    let closed := '/' :: (body ++ '/' :: ['g', 'é'])
    let l := start (closed ++ [';']) true
    let l' := start ('/' :: body ++ ['\u2028']) true
    RegularBody body ∧ l.scan.kind = .mark .slashEquals ∧
      l.scan.rescanSlash.token = regularToken 0 closed false ∧
      l'.scan.rescanSlash.token = regularToken 0 ('/' :: body) true := by
  intro body closed l l'
  have class_ : ClassText ['/', '\\', ']'] :=
    .plain (by decide) (by decide) (.escaped (by decide) .nil)
  have written : RegularBody body :=
    .plain (by decide) (by decide) (.classed class_ (.escaped (by decide)
      (.plain (by decide) (by decide) .nil)))
  have letters : ∀ c ∈ ['g', 'é'], isIdentifierPart c = true :=
    List.all_eq_true.1 (by decide +kernel)
  have ends : ∀ c ∈ [';'].head?, isIdentifierPart c = false := by
    intro c first
    obtain rfl : ';' = c := Option.some.inj first
    decide +kernel
  have line : ∀ c ∈ ['\u2028'].head?, isLineTerminator c = true := by
    intro c first
    obtain rfl : '\u2028' = c := Option.some.inj first
    decide
  have read := Lexer.rescanSlash_regularBody written nofun (by decide) l
  have read' := Lexer.rescanSlash_regularBody written nofun (by decide) l'
  exact ⟨written, by decide +kernel, (read.1 ['g', 'é'] [';'] letters ends rfl).1,
    (read'.2 ['\u2028'] line rfl).1⟩

end PathGuard
