import PathGuard.Proofs.Token.Escape
import PathGuard.Proofs.Token.Tiling
import PathGuard.Proofs.Token.Unclosed
/-!
# What names are made of

A name is written with the characters that names go on with and with escapes. A character is looked
at before it is taken, an escape is taken for whatever it stands for. So a token that the lexer takes
for a name, a word or a private name has the value of a name exactly when each of its escapes stands
for a character that might be written in its place.
-/

namespace PathGuard

def IsName : List Char → Prop
  | [] => False
  | c :: cs => isIdentifierStart c = true ∧ ∀ d ∈ cs, isIdentifierPart d = true

inductive NamePart where
  | plain (c : Char) (part : isIdentifierPart c = true)
  | escaped (c : Char) (text : List Char) (means : Escapes c ('u' :: text))

namespace NamePart

def char : NamePart → Char
  | plain c _ | escaped c _ _ => c

def chars : NamePart → List Char
  | plain c _ => [c]
  | escaped _ text _ => '\\' :: 'u' :: text

def isEscaped : NamePart → Bool
  | plain _ _ => false
  | escaped _ _ _ => true

/-- Whether there are parts, and each escape among them stands for a character that may be written in
its place. -/
def Fit : List NamePart → Prop
  | [] => False
  | p :: ps =>
    (p.isEscaped = true → isIdentifierStart p.char = true) ∧
      ∀ q ∈ ps, q.isEscaped = true → isIdentifierPart q.char = true

variable {p : NamePart} {ps : List NamePart}

theorem isIdentifierPart_char (plain : p.isEscaped = false) : isIdentifierPart p.char = true := by
  cases p with
  | plain c part => exact part
  | escaped => cases plain

/-- Where the first character begins a name, the parts stand for a name exactly when their escapes
fit. -/
theorem isName_iff_fit (begins : ∀ p ∈ ps.head?, p.isEscaped = false → isIdentifierStart p.char = true) :
    IsName (ps.map char) ↔ Fit ps := by
  cases ps with
  | nil => exact Iff.rfl
  | cons p ps =>
    have first : isIdentifierStart p.char = true ↔
        (p.isEscaped = true → isIdentifierStart p.char = true) := by
      cases escape : p.isEscaped with
      | false => simp [begins p rfl escape]
      | true => simp
    have others : (∀ d ∈ ps.map char, isIdentifierPart d = true) ↔
        ∀ q ∈ ps, q.isEscaped = true → isIdentifierPart q.char = true := by
      rw [List.forall_mem_map]
      refine forall₂_congr fun q _ => ?_
      cases escape : q.isEscaped with
      | false => simp [isIdentifierPart_char escape]
      | true => simp
    exact and_congr first others

theorem backslash_mem_chars : '\\' ∈ p.chars ↔ p.isEscaped = true := by
  cases p with
  | plain c part =>
    have other : '\\' ≠ c := by
      rintro rfl
      exact absurd part (by decide +kernel)
    simp [chars, isEscaped, other]
  | escaped => simp [chars, isEscaped]

end NamePart

def IsBrokenEscape (text : List Char) : Prop :=
  ∃ more, text = '\\' :: 'u' :: more ∧ ∀ c, ¬Escapes c ('u' :: more)

/-! ### The characters of a name -/

/-- How a name is made of what stands at a place: of parts, up to the escape that breaks it off, if
one does. -/
structure Name.Spelled (name : Name) (c : Cursor) (parts : List NamePart) (broken : List Char) :
    Prop where
  breaks : broken = [] ∨ IsBrokenEscape broken
  written : c.rest = parts.flatMap NamePart.chars ++ (broken ++ name.stop.rest)
  chars : name.chars = parts.map NamePart.char
  escaped : name.escaped = parts.any NamePart.isEscaped

namespace Name

variable {name : Name} {c c' : Cursor} {parts : List NamePart} {broken : List Char}

theorem Spelled.push {p : NamePart} (h : name.Spelled c' parts broken)
    (here : c.rest = p.chars ++ c'.rest) :
    (name.push p.char p.isEscaped).Spelled c (p :: parts) broken where
  breaks := h.breaks
  written := by
    rw [here, h.written, List.flatMap_cons, List.append_assoc]
    rfl
  chars := congrArg _ h.chars
  escaped := by
    rw [Name.push, h.escaped]
    rfl

theorem Spelled.begins (h : name.Spelled c parts broken) {ch : Char} {rest : List Char}
    (here : c.rest = ch :: rest) (begins : isIdentifierStart ch = true ∨ ch = '\\') :
    ∀ p ∈ parts.head?, p.isEscaped = false → isIdentifierStart p.char = true := by
  intro p first plain
  obtain ⟨ps, rfl⟩ := List.head?_eq_some_iff.1 first
  cases p with
  | escaped => cases plain
  | plain d part =>
    have written := h.written
    rw [here] at written
    obtain rfl : ch = d := (List.cons.inj written).1
    refine begins.resolve_right ?_
    rintro rfl
    exact absurd part (by decide +kernel)

end Name

theorem readNameChars_spelled (bound : List Char) (c : Cursor) :
    ∃ parts broken, (readNameChars bound c).Spelled c parts broken := by
  have nothing (c : Cursor) : (⟨[], c, false, false⟩ : Name).Spelled c [] [] :=
    ⟨.inl rfl, rfl, rfl, rfl⟩
  induction bound generalizing c with
  | nil => exact ⟨[], [], nothing c⟩
  | cons _ bound ih =>
    rw [readNameChars]
    cases here : c.rest with
    | nil => exact ⟨[], [], nothing c⟩
    | cons ch rest =>
      dsimp only
      by_cases part : isIdentifierPart ch = true
      · rw [if_pos part]
        obtain ⟨parts, broken, later⟩ := ih c.next
        have first : c.rest = [ch] ++ c.next.rest := by
          rw [Cursor.next_of_cons here, here]
          rfl
        exact ⟨_, _, later.push (p := .plain ch part) first⟩
      rw [if_neg part]
      by_cases escapes : (ch = '\\' && rest.head? = some 'u') = true
      · rw [if_pos escapes]
        rw [Bool.and_eq_true, decide_eq_true_iff, decide_eq_true_iff] at escapes
        obtain ⟨rfl, second⟩ := escapes
        obtain ⟨more, rfl⟩ := List.head?_eq_some_iff.1 second
        have behind : (c.skip 2).rest = more := by
          have next : c.next.rest = 'u' :: more := by rw [Cursor.next_of_cons here]
          change c.next.next.rest = more
          rw [Cursor.next_of_cons next]
        obtain ⟨text, split_, means⟩ := readCodePoint_spec (c.skip 2)
        rw [behind] at split_
        have first : c.rest = ('\\' :: 'u' :: text) ++ (readCodePoint (c.skip 2)).stop.rest := by
          rw [here, split_]
          rfl
        cases value : (readCodePoint (c.skip 2)).value with
        | none =>
          -- an escape that stands for nothing breaks the name off
          have noEscape (ch : Char) : ¬Escapes ch ('u' :: text) := by
            intro escape
            rw [← means, value] at escape
            cases escape
          exact ⟨[], '\\' :: 'u' :: text, .inr ⟨text, rfl, noEscape⟩, first, rfl, rfl⟩
        | some ch =>
          obtain ⟨parts, broken, later⟩ := ih (readCodePoint (c.skip 2)).stop
          exact ⟨_, _, later.push (p := .escaped ch text ((means ch).1 value)) first⟩
      · rw [if_neg escapes]
        exact ⟨[], [], nothing c⟩

theorem plain_of_isIdentifierStart {c : Cursor} {parts : List NamePart} {broken : List Char}
    (h : (readName c).Spelled c parts broken) {ch : Char} {rest : List Char}
    (here : c.rest = ch :: rest) (begins : isIdentifierStart ch = true) :
    ∃ part ps, parts = .plain ch part :: ps := by
  have written := h.written
  have noEscape : ch ≠ '\\' := by
    rintro rfl
    exact absurd begins (by decide +kernel)
  cases parts with
  | nil =>
    obtain none_ | ⟨more, broken_, -⟩ := h.breaks
    · have shorter := (passes_readName here (.inl (isIdentifierPart_of_start begins))).length_lt
      rw [written, none_] at shorter
      exact absurd shorter (Nat.lt_irrefl _)
    · rw [here, broken_] at written
      exact absurd (List.cons.inj written).1 noEscape
  | cons p ps =>
    rw [here] at written
    cases p with
    | plain d part =>
      obtain rfl : ch = d := (List.cons.inj written).1
      exact ⟨part, ps, rfl⟩
    | escaped => exact absurd (List.cons.inj written).1 noEscape

/-! ### Names as tokens -/

inductive NameRead (c : Cursor) : Prop where
  | name {ch : Char} {rest : List Char} (here : c.rest = ch :: rest)
      (begins : isIdentifierStart ch = true ∨ ch = '\\') (read : readPiece c = readIdentifier c)
  | private_ {ch : Char} {rest : List Char} (here : c.rest = '#' :: ch :: rest)
      (begins : isIdentifierStart ch = true)
      (read : readPiece c = ⟨.privateIdentifier, (readName c.next).stop,
        String.ofList (readName c.next).chars, (readName c.next).flags⟩) : NameRead c

theorem nameRead {c : Cursor} (named : (readPiece c).kind.isName = true) : NameRead c := by
  cases begun c with
  | shebang _ read | endOfFile _ read | newLine _ _ read | whitespace _ _ read
  | lineComment _ read | blockComment _ read | string _ read | template _ read
  | number _ _ read =>
    rw [read] at named
    cases named
  | @privateName rest here read =>
    rw [readPrivateIdentifier] at read
    split at read
    · next begins =>
      obtain ⟨ch, first, starts⟩ := (Option.any_eq_true _ _).1 begins
      obtain ⟨more, behind⟩ := List.head?_eq_some_iff.1 first
      rw [Cursor.next_of_cons here] at behind
      exact .private_ (by rw [here, ← behind]) starts read
    · rw [read] at named
      cases named
  | name here begins read => exact .name here (begins.imp_right And.left) read
  | mark _ read =>
    rw [read, readMark] at named
    split at named <;> cases named

namespace TokenKind

def nameMark : TokenKind → List Char
  | .privateIdentifier => ['#']
  | _ => []

end TokenKind

/-- How a token is made as a name: its value of the parts, and its text of the mark in front of them,
what they are written with, and the escape that breaks the name off, if one does. -/
structure Token.Spelled (t : Token) (parts : List NamePart) (broken : List Char) : Prop where
  breaks : broken = [] ∨ IsBrokenEscape broken
  text : t.text.toList = t.kind.nameMark ++ (parts.flatMap NamePart.chars ++ broken)
  value : t.value.toList = parts.map NamePart.char

theorem Token.Spelled.backslash {t : Token} {parts : List NamePart} {broken : List Char}
    (h : t.Spelled parts broken) :
    '\\' ∉ t.text.toList ↔ broken = [] ∧ ∀ p ∈ parts, p.isEscaped = false := by
  have mark : '\\' ∉ t.kind.nameMark := by
    unfold TokenKind.nameMark
    split
    · decide
    · exact List.not_mem_nil
  have behind : '\\' ∉ broken ↔ broken = [] := by
    obtain rfl | ⟨more, rfl, -⟩ := h.breaks
    · exact ⟨fun _ => rfl, fun _ => List.not_mem_nil⟩
    · exact ⟨fun none_ => absurd List.mem_cons_self none_, nofun⟩
  have inside : '\\' ∉ parts.flatMap NamePart.chars ↔ ∀ p ∈ parts, p.isEscaped = false := by
    simp only [List.mem_flatMap, NamePart.backslash_mem_chars, not_exists, not_and,
      Bool.not_eq_true]
  rw [h.text, List.mem_append, List.mem_append, not_or, not_or, behind, inside]
  exact ⟨fun ⟨_, plain, whole⟩ => ⟨whole, plain⟩, fun ⟨whole, plain⟩ => ⟨mark, plain, whole⟩⟩

theorem readIdentifier_word {c : Cursor} {w : Keyword} :
    (readIdentifier c).kind = .word w ↔
      Keyword.ofText? (readIdentifier c).value = some w ∧ (readName c).escaped = false := by
  have value : (readIdentifier c).value = String.ofList (readName c).chars := rfl
  rw [value, readIdentifier]
  dsimp only
  cases (readName c).escaped with
  | true => simp
  | false =>
    rw [if_neg Bool.false_ne_true]
    cases Keyword.ofText? (String.ofList (readName c).chars) <;> simp

theorem nameMark_readIdentifier (c : Cursor) : (readIdentifier c).kind.nameMark = [] := by
  obtain name | ⟨w, word⟩ := readIdentifier_kind c
  · rw [name]
    rfl
  · rw [word]
    rfl

namespace Lexer

variable {l : Lexer}

theorem scan_value (l : Lexer) : l.scan.value = (readPiece l.scan.first).value := by
  obtain ⟨c, flags, -, scanned⟩ := scan_spec l
  rw [scanned]

theorem token_spelled {name : Name} {c : Cursor} {parts : List NamePart} {broken : List Char}
    (h : name.Spelled c parts broken) (behind : l.scan.first.rest = l.scan.kind.nameMark ++ c.rest)
    (value : l.scan.value = String.ofList name.chars) (stop : l.scan.here = name.stop) :
    l.scan.token.Spelled parts broken := by
  have later : l.scan.first.Reaches l.scan.here := by
    obtain ⟨-, -, stop⟩ := scan_reads l
    exact stop ▸ reaches_readPiece _
  have text : l.scan.first.textTo l.scan.here.offset =
      l.scan.kind.nameMark ++ (parts.flatMap NamePart.chars ++ broken) := by
    have whole := later.textTo.1
    rw [behind, h.written, ← stop, ← List.append_assoc, ← List.append_assoc,
      List.append_left_inj] at whole
    rw [← whole, List.append_assoc]
  refine ⟨h.breaks, ?_, ?_⟩
  · change (String.ofList _).toList = _
    rw [String.toList_ofList]
    exact text
  · change l.scan.value.toList = _
    rw [value, String.toList_ofList, h.chars]

/-- A token that is read as a name, a word or a private name has the value of a name exactly when its
escapes fit, of which a private name has none in front. It is a word exactly when its value is one
and no part of it is an escape. -/
theorem scan_nameParts (named : l.scan.kind.isName = true) :
    ∃ parts broken, l.scan.token.Spelled parts broken ∧
      (IsName l.scan.token.value.toList ↔ NamePart.Fit parts) ∧
      (l.scan.token.kind = .privateIdentifier → ∃ c part ps, parts = .plain c part :: ps) ∧
      (l.scan.token.kind ≠ .privateIdentifier → ∀ w, l.scan.token.kind = .word w ↔
        Keyword.ofText? l.scan.token.value = some w ∧ ∀ p ∈ parts, p.isEscaped = false) ∧
      ('\\' ∉ l.scan.token.text.toList ↔ broken = [] ∧ ∀ p ∈ parts, p.isEscaped = false) := by
  obtain ⟨-, kind, stop⟩ := scan_reads l
  have value := scan_value l
  rw [kind] at named
  cases nameRead named with
  | name here begins read =>
    rw [read] at kind stop value
    obtain ⟨parts, broken, h⟩ := readNameChars_spelled l.scan.first.rest l.scan.first
    have noMark : l.scan.kind.nameMark = [] := kind ▸ nameMark_readIdentifier l.scan.first
    have spelled := token_spelled h (by rw [noMark, List.nil_append]) value stop
    refine ⟨parts, broken, spelled, ?_, ?_, ?_, spelled.backslash⟩
    · rw [spelled.value]
      exact NamePart.isName_iff_fit (h.begins here begins)
    · intro private_
      change l.scan.kind = _ at private_
      rw [private_] at noMark
      cases noMark
    · intro _ w
      have word := readIdentifier_word (c := l.scan.first) (w := w)
      rw [← kind, ← value, show (readName l.scan.first).escaped = _ from h.escaped,
        List.any_eq_false] at word
      simp only [Bool.not_eq_true] at word
      exact word
  | private_ here begins read =>
    rw [read] at kind stop value
    dsimp only at kind stop value
    obtain ⟨parts, broken, h⟩ := readNameChars_spelled l.scan.first.next.rest l.scan.first.next
    have next := Cursor.next_of_cons here
    have there : l.scan.first.next.rest = _ :: _ := congrArg Cursor.rest next
    have behind : l.scan.first.rest = l.scan.kind.nameMark ++ l.scan.first.next.rest := by
      rw [kind, here, there]
      rfl
    have spelled := token_spelled h behind value stop
    -- a private name is only read as one where a character begins it behind the hash
    have fits := NamePart.isName_iff_fit (h.begins there (.inl begins))
    refine ⟨parts, broken, spelled, spelled.value ▸ fits, fun _ => ?_, ?_, spelled.backslash⟩
    · obtain ⟨part, ps, first⟩ := plain_of_isIdentifierStart h there begins
      exact ⟨_, part, ps, first⟩
    · intro other
      exact absurd kind other

/-- An escape that stands for a blank makes a name with a blank in it, and a word behind which an
escape breaks off is still that word. -/
theorem scan_nameParts_blank :
    let l := start ['a', '\\', 'u', '0', '0', '2', '0', 'b'] true
    let l' := start ['v', 'a', 'r', '\\', 'u'] true
    (l.scan.kind = .identifier ∧ l.scan.value = "a b" ∧
      ∃ parts broken, l.scan.token.Spelled parts broken ∧ ¬NamePart.Fit parts) ∧
    l'.scan.kind = .word .varWord ∧
      ∃ parts broken, l'.scan.token.Spelled parts broken ∧ broken ≠ [] := by
  intro l l'
  have kind : l.scan.kind = .identifier := by decide +kernel
  have kind' : l'.scan.token.kind = .word .varWord := by decide +kernel
  have notPrivate : l'.scan.token.kind ≠ .privateIdentifier := by
    rw [kind']
    simp
  have noName : ¬IsName l.scan.token.value.toList := by
    have value : l.scan.token.value.toList = ['a', ' ', 'b'] := by decide +kernel
    rw [value]
    rintro ⟨-, parts⟩
    exact absurd (parts ' ' (by decide)) (by decide +kernel)
  have escaped : '\\' ∈ l'.scan.token.text.toList := by decide +kernel
  obtain ⟨parts, broken, spelled, fits, -⟩ := scan_nameParts (l := l) (by rw [kind]; rfl)
  obtain ⟨parts', broken', spelled', -, -, word, plain⟩ :=
    scan_nameParts (l := l') (by rw [show l'.scan.kind = _ from kind']; rfl)
  have noParts := ((word notPrivate .varWord).1 kind').2
  refine ⟨⟨kind, by decide +kernel, parts, broken, spelled, fits.not.1 noName⟩, kind', parts',
    broken', spelled', fun whole => ?_⟩
  exact plain.2 ⟨whole, noParts⟩ escaped

end Lexer

end PathGuard
