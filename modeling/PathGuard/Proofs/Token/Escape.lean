import Mathlib.Data.Nat.Digits.Defs
import PathGuard.Proofs.Token.Word
/-!
# What escapes stand for

A character can be written by a letter, by two or four hexadecimal digits, or by one to six of them in
braces. Whatever follows it in the text, each of these is read as that character and no further than
it is written; and a backslash before the end of a line is read as nothing.
-/

namespace PathGuard

def hexNumber? (digits : List Char) : Option Nat :=
  (digits.mapM hexValue?).map fun values => Nat.ofDigits 16 values.reverse

def letterEscapes : List (Char × Char) :=
  [('n', '\n'), ('t', '\t'), ('r', '\r'), ('b', '\x08'), ('f', '\x0c'), ('v', '\x0b')]

/-- Whether a text behind a backslash is one of the ways to write a character. -/
inductive Escapes (c : Char) : List Char → Prop where
  | letter {l : Char} (means : (l, c) ∈ letterEscapes) : Escapes c [l]
  | byte {digits : List Char} (two : digits.length = 2) (number : hexNumber? digits = some c.toNat) :
      Escapes c ('x' :: digits)
  | unit {digits : List Char} (four : digits.length = 4)
      (number : hexNumber? digits = some c.toNat) : Escapes c ('u' :: digits)
  | braced {digits : List Char} (some_ : 1 ≤ digits.length) (few : digits.length ≤ 6)
      (number : hexNumber? digits = some c.toNat) : Escapes c ('u' :: '\x7b' :: (digits ++ ['\x7d']))

def lineEnds : List (List Char) := [['\n'], ['\r', '\n'], ['\r'], ['\u2028'], ['\u2029']]

/-! ### Numbers -/

theorem charOfCode?_toNat (c : Char) : charOfCode? c.toNat = some c := by
  have valid : c.toNat.isValidChar := c.valid
  rw [charOfCode?, if_pos valid, Char.ofNat_toNat]

theorem charOfCode?_eq_some {code : Nat} {c : Char} : charOfCode? code = some c ↔ code = c.toNat := by
  constructor
  · intro h
    rw [charOfCode?, Option.ite_none_right_eq_some] at h
    obtain ⟨valid, found⟩ := h
    rw [← Option.some.inj found, Char.ofNat, dif_pos valid]
    rfl
  · rintro rfl
    exact charOfCode?_toNat c

theorem hexNumber?_cons (d : Char) (digits : List Char) :
    hexNumber? (d :: digits) =
      (hexValue? d).bind fun value =>
        (hexNumber? digits).map fun rest => value * 16 ^ digits.length + rest := by
  have length {l : List Char} {values : List Nat} (all : l.mapM hexValue? = some values) :
      values.length = l.length := by
    induction l generalizing values with
    | nil => exact Option.some.inj all ▸ rfl
    | cons c l ih =>
      rw [List.mapM_cons] at all
      obtain ⟨value, -, more⟩ := Option.bind_eq_some_iff.1 all
      obtain ⟨others, behind, whole⟩ := Option.bind_eq_some_iff.1 more
      rw [← Option.some.inj whole, List.length_cons, List.length_cons, ih behind]
  rw [hexNumber?, List.mapM_cons]
  cases hexValue? d with
  | none => rfl
  | some value =>
    cases behind : digits.mapM hexValue? with
    | none => simp [hexNumber?, behind]
    | some others =>
      have sum : Nat.ofDigits 16 (others.reverse ++ [value]) =
          value * 16 ^ digits.length + Nat.ofDigits 16 others.reverse := by
        rw [Nat.ofDigits_append, Nat.ofDigits_singleton, List.length_reverse, length behind,
          Nat.mul_comm, Nat.add_comm]
      simp [hexNumber?, behind, sum]

theorem hexNumber?_cons_eq_some {d : Char} {digits : List Char} {number : Nat} :
    hexNumber? (d :: digits) = some number ↔
      ∃ value rest, hexValue? d = some value ∧ hexNumber? digits = some rest ∧
        number = value * 16 ^ digits.length + rest := by
  rw [hexNumber?_cons, Option.bind_eq_some_iff]
  simp only [Option.map_eq_some_iff]
  constructor
  · rintro ⟨value, first, rest, others, rfl⟩
    exact ⟨value, rest, first, others, rfl⟩
  · rintro ⟨value, rest, first, others, rfl⟩
    exact ⟨value, first, rest, others, rfl⟩

/-- Digits are read up to the most that may be, or up to something that is no digit. -/
theorem readHex_digits {most number : Nat} {digits rest : List Char}
    (written : hexNumber? digits = some number) (few : digits.length ≤ most)
    (ends : digits.length = most ∨ rest.head?.bind hexValue? = none) (count value offset : Nat) :
    readHex most count value ⟨offset, digits ++ rest⟩ =
      (count + digits.length, value * 16 ^ digits.length + number,
        ⟨offset + byteLength digits, rest⟩) := by
  induction digits generalizing most number count value offset with
  | nil =>
    obtain rfl : 0 = number := Option.some.inj written
    cases most with
    | zero => simp [readHex, byteLength]
    | succ most =>
      have stop : rest.head?.bind hexValue? = none := ends.resolve_left (by simp)
      simp [readHex, Cursor.peek, byteLength, stop]
  | cons d digits ih =>
    cases most with
    | zero => cases few
    | succ most =>
      obtain ⟨first, others, digit, behind, rfl⟩ := hexNumber?_cons_eq_some.1 written
      have further := ih behind (Nat.le_of_succ_le_succ few) (ends.imp_left Nat.succ.inj)
        (count + 1) (value * 16 + first) (offset + d.utf8Size)
      have read : (Cursor.mk offset (d :: digits ++ rest)).peek.bind hexValue? = some first := digit
      have sum : (value * 16 + first) * 16 ^ digits.length + others =
          value * 16 ^ (digits.length + 1) + (first * 16 ^ digits.length + others) := by
        rw [Nat.pow_succ, Nat.add_mul, Nat.mul_assoc, Nat.mul_comm 16, Nat.add_assoc]
      rw [readHex, read]
      change readHex most _ _ ⟨offset + d.utf8Size, digits ++ rest⟩ = _
      rw [further, sum, byteLength, List.length_cons, Nat.add_assoc, Nat.add_comm 1,
        Nat.add_assoc offset]

theorem readHexNumber_digits {least most number : Nat} {digits rest : List Char}
    (written : hexNumber? digits = some number) (enough : least ≤ digits.length)
    (few : digits.length ≤ most)
    (ends : digits.length = most ∨ rest.head?.bind hexValue? = none) (offset : Nat) :
    readHexNumber least most ⟨offset, digits ++ rest⟩ =
      (some number, ⟨offset + byteLength digits, rest⟩) := by
  rw [readHexNumber, readHex_digits written few ends 0 0 offset]
  simp [enough]

/-! ### Escapes -/

theorem head?_of_hexNumber? {digits rest : List Char} {number : Nat}
    (written : hexNumber? digits = some number) (some_ : 1 ≤ digits.length) :
    (digits ++ rest).head? ≠ some '\x7b' := by
  cases digits with
  | nil => cases some_
  | cons d digits =>
    obtain ⟨value, -, digit, -⟩ := hexNumber?_cons_eq_some.1 written
    have other : hexValue? '\x7b' = none := by decide
    intro brace
    obtain rfl : d = '\x7b' := Option.some.inj brace
    rw [other] at digit
    cases digit

theorem readCodePoint_unit {c : Char} {digits : List Char} (four : digits.length = 4)
    (number : hexNumber? digits = some c.toNat) (offset : Nat) (rest : List Char) :
    readCodePoint ⟨offset, digits ++ rest⟩ =
      ⟨some c, ⟨offset + byteLength digits, rest⟩, false⟩ := by
  have plain : (Cursor.mk offset (digits ++ rest)).peek ≠ some '\x7b' :=
    head?_of_hexNumber? number (by omega)
  rw [readCodePoint, if_neg plain, readHexNumber_digits number (by omega) (by omega) (.inl four)]
  simp [charOfCode?_toNat]

theorem readCodePoint_braced {c : Char} {digits : List Char} (some_ : 1 ≤ digits.length)
    (few : digits.length ≤ 6) (number : hexNumber? digits = some c.toNat) (offset : Nat)
    (rest : List Char) :
    readCodePoint ⟨offset, '\x7b' :: (digits ++ '\x7d' :: rest)⟩ =
      ⟨some c, ⟨offset + 1 + byteLength digits + 1, rest⟩, false⟩ := by
  have open_ : '\x7b'.utf8Size = 1 := by decide
  have close : '\x7d'.utf8Size = 1 := by decide
  have other : hexValue? '\x7d' = none := by decide
  have ends : ('\x7d' :: rest).head?.bind hexValue? = none := other
  have here : (Cursor.mk offset ('\x7b' :: (digits ++ '\x7d' :: rest))).peek = some '\x7b' := rfl
  have read : readHexNumber 1 6 ⟨offset + 1, digits ++ '\x7d' :: rest⟩ =
      (some c.toNat, ⟨offset + 1 + byteLength digits, '\x7d' :: rest⟩) :=
    readHexNumber_digits number some_ few (.inr ends) (offset + 1)
  rw [readCodePoint, if_pos here, Cursor.next_of_cons rfl, open_, read]
  simp [Cursor.peek, Cursor.next, charOfCode?_toNat, close]

theorem letterEscape?_of_mem {l c : Char} (means : (l, c) ∈ letterEscapes) :
    letterEscape? l = some c := by
  simp only [letterEscapes, List.mem_cons, Prod.mk.injEq, List.not_mem_nil, or_false] at means
  rcases means with ⟨rfl, rfl⟩ | ⟨rfl, rfl⟩ | ⟨rfl, rfl⟩ | ⟨rfl, rfl⟩ | ⟨rfl, rfl⟩ | ⟨rfl, rfl⟩
  all_goals rfl

theorem Escapes.read {c : Char} {text : List Char} (h : Escapes c text) (offset : Nat)
    (rest : List Char) :
    readEscape ⟨offset, text ++ rest⟩ = ⟨some c, ⟨offset + byteLength text, rest⟩, false⟩ := by
  cases h with
  | letter means =>
    simp [readEscape, Cursor.peek, Cursor.next, letterEscape?_of_mem means, byteLength]
  | @byte digits two number =>
    have size : 'x'.utf8Size = 1 := by decide
    have read : readHexNumber 2 2 ⟨offset + 1, digits ++ rest⟩ =
        (some c.toNat, ⟨offset + 1 + byteLength digits, rest⟩) :=
      readHexNumber_digits number (by omega) (by omega) (.inl two) (offset + 1)
    rw [List.cons_append, readEscape]
    simp [Cursor.peek, Cursor.next, letterEscape?, size, read, charOfCode?_toNat, byteLength,
      Nat.add_assoc]
  | @unit digits four number =>
    have size : 'u'.utf8Size = 1 := by decide
    have read := readCodePoint_unit four number (offset + 1) rest
    rw [List.cons_append, readEscape]
    simp [Cursor.peek, Cursor.next, letterEscape?, size, read, byteLength, Nat.add_assoc]
  | @braced digits some_ few number =>
    have size : 'u'.utf8Size = 1 := by decide
    have open_ : '\x7b'.utf8Size = 1 := by decide
    have close : '\x7d'.utf8Size = 1 := by decide
    have read := readCodePoint_braced some_ few number (offset + 1) rest
    have length : offset + 1 + 1 + byteLength digits + 1 =
        offset + byteLength ('u' :: '\x7b' :: (digits ++ ['\x7d'])) := by
      rw [byteLength, byteLength, byteLength_append, byteLength, byteLength, size, open_, close]
      omega
    rw [length] at read
    rw [List.cons_append, List.cons_append, List.append_assoc, readEscape]
    simp [Cursor.peek, Cursor.next, letterEscape?, size, read]

/-- The end of a line stands for nothing. A carriage return before a line feed would end the line
together with it. -/
theorem readEscape_lineEnd {stop rest : List Char} (line : stop ∈ lineEnds)
    (noFeed : rest.head? ≠ some '\n') (offset : Nat) :
    readEscape ⟨offset, stop ++ rest⟩ = ⟨none, ⟨offset + byteLength stop, rest⟩, false⟩ := by
  simp only [lineEnds, List.mem_cons, List.not_mem_nil, or_false] at line
  have feed : '\n'.utf8Size = 1 := by decide
  have ret : '\r'.utf8Size = 1 := by decide
  rcases line with rfl | rfl | rfl | rfl | rfl
  · simp [readEscape, Cursor.peek, Cursor.next, letterEscape?, byteLength]
  · simp [readEscape, Cursor.peek, Cursor.next, letterEscape?, byteLength, feed, ret]
  · simp [readEscape, Cursor.peek, Cursor.next, letterEscape?, byteLength, noFeed]
  · simp [readEscape, Cursor.peek, Cursor.next, letterEscape?, byteLength]
  · simp [readEscape, Cursor.peek, Cursor.next, letterEscape?, byteLength]

/-! ### What was read -/

theorem readHex_spec (most count value : Nat) (c : Cursor) :
    ∃ digits number, hexNumber? digits = some number ∧
      c.rest = digits ++ (readHex most count value c).2.2.rest ∧ digits.length ≤ most ∧
      (readHex most count value c).1 = count + digits.length ∧
      (readHex most count value c).2.1 = value * 16 ^ digits.length + number := by
  induction most generalizing count value c with
  | zero => exact ⟨[], 0, rfl, rfl, Nat.le_refl 0, rfl, by simp [readHex]⟩
  | succ most ih =>
    rw [readHex]
    cases digit : c.peek.bind hexValue? with
    | none => exact ⟨[], 0, rfl, rfl, Nat.zero_le _, rfl, by simp⟩
    | some first =>
      obtain ⟨d, here, means⟩ := Option.bind_eq_some_iff.1 digit
      obtain ⟨rest, split_⟩ := List.head?_eq_some_iff.1 here
      obtain ⟨digits, number, written, behind, few, read, sum⟩ :=
        ih (count + 1) (value * 16 + first) c.next
      rw [Cursor.next_of_cons split_] at behind
      dsimp only at behind ⊢
      refine ⟨d :: digits, first * 16 ^ digits.length + number,
        hexNumber?_cons_eq_some.2 ⟨first, number, means, written, rfl⟩, ?_, ?_, ?_, ?_⟩
      · rw [split_, behind, Cursor.next_of_cons split_]
        rfl
      · exact Nat.succ_le_succ few
      · rw [read, List.length_cons]
        omega
      · rw [sum, List.length_cons, Nat.pow_succ, Nat.add_mul, Nat.mul_assoc, Nat.mul_comm 16,
          Nat.add_assoc]

theorem readHexNumber_spec (least most : Nat) (c : Cursor) :
    ∃ digits number, hexNumber? digits = some number ∧
      c.rest = digits ++ (readHexNumber least most c).2.rest ∧ digits.length ≤ most ∧
      (readHexNumber least most c).1 = if least ≤ digits.length then some number else none := by
  obtain ⟨digits, number, written, behind, few, read, sum⟩ := readHex_spec most 0 0 c
  rw [Nat.zero_add] at read
  rw [Nat.zero_mul, Nat.zero_add] at sum
  refine ⟨digits, number, written, behind, few, ?_⟩
  rw [readHexNumber]
  dsimp only
  rw [read, sum]

/-- What is read behind the letter of an escape stands for a character exactly when it is one of the
ways to write that character. -/
theorem readCodePoint_spec (c : Cursor) :
    ∃ text, c.rest = text ++ (readCodePoint c).stop.rest ∧
      ∀ ch, (readCodePoint c).value = some ch ↔ Escapes ch ('u' :: text) := by
  -- a way to write a character is read as that character
  have complete {text : List Char} (behind : c.rest = text ++ (readCodePoint c).stop.rest)
      {ch : Char} (h : Escapes ch ('u' :: text)) : (readCodePoint c).value = some ch := by
    have place : c = ⟨c.offset, text ++ (readCodePoint c).stop.rest⟩ := by rw [← behind]
    cases h with
    | letter means => exact absurd means (by simp [letterEscapes])
    | unit four number => rw [place, readCodePoint_unit four number]
    | @braced digits some_ few number =>
      rw [List.cons_append, List.append_assoc] at place
      rw [place]
      exact congrArg Escape.value (readCodePoint_braced some_ few number _ _)
  suffices sound : ∃ text, c.rest = text ++ (readCodePoint c).stop.rest ∧
      ∀ ch, (readCodePoint c).value = some ch → Escapes ch ('u' :: text) by
    obtain ⟨text, behind, sound⟩ := sound
    exact ⟨text, behind, fun ch => ⟨sound ch, complete behind⟩⟩
  clear complete
  rw [readCodePoint]
  by_cases opens : c.peek = some '\x7b'
  · obtain ⟨inside, here⟩ := List.head?_eq_some_iff.1 opens
    obtain ⟨digits, number, written, behind, few, code⟩ := readHexNumber_spec 1 6 c.next
    simp only [if_pos opens]
    by_cases closes : ((readHexNumber 1 6 c.next).1.isSome &&
        (readHexNumber 1 6 c.next).2.peek = some '\x7d') = true
    · simp only [if_pos closes]
      rw [Bool.and_eq_true, decide_eq_true_iff] at closes
      obtain ⟨some_, brace⟩ := closes
      obtain ⟨rest, end_⟩ := List.head?_eq_some_iff.1 brace
      refine ⟨'\x7b' :: (digits ++ ['\x7d']), ?_, fun ch value => ?_⟩
      · have inside_eq : inside = c.next.rest := by rw [Cursor.next_of_cons here]
        rw [Cursor.next_of_cons end_, here, inside_eq, behind, end_, List.cons_append,
          List.append_assoc]
        rfl
      · have enough : 1 ≤ digits.length := by
          by_contra less
          rw [code, if_neg less] at some_
          cases some_
        rw [code, if_pos enough, Option.bind_some, charOfCode?_eq_some] at value
        exact .braced enough few (value ▸ written)
    · simp only [if_neg closes]
      exact ⟨[], rfl, nofun⟩
  · obtain ⟨digits, number, written, behind, few, code⟩ := readHexNumber_spec 4 4 c
    simp only [if_neg opens]
    refine ⟨digits, behind, fun ch value => ?_⟩
    by_cases enough : 4 ≤ digits.length
    · rw [code, if_pos enough, Option.bind_some, charOfCode?_eq_some] at value
      exact .unit (Nat.le_antisymm few enough) (value ▸ written)
    · rw [code, if_neg enough] at value
      cases value

end PathGuard
