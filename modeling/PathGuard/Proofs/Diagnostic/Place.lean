import PathGuard.Diagnostic.Message
import PathGuard.Proofs.Text.Numeral
/-!
# Templates and their places

A place is a numeral in braces. A text whose braces all belong to places consists of parts, which
are places and text without braces: where a brace comes first, a place begins, and since it has no
other opening brace, the next place begins behind it.
-/

namespace PathGuard

def isBrace (c : Char) : Bool := c == '\x7b' || c == '\x7d'

def Braceless (text : List Char) : Prop := ∀ c ∈ text, isBrace c = false

instance : DecidablePred Braceless := fun text =>
  decidable_of_iff (text.all (!isBrace ·) = true) (by simp [Braceless])

def inBraces (digits : List Char) : List Char := '\x7b' :: (digits ++ ['\x7d'])

theorem ne_openBrace_of_mem {digits : List Char} (numeral : isNumeral digits = true) {c : Char}
    (member : c ∈ digits ++ ['\x7d']) : c ≠ '\x7b' := by
  rintro rfl
  rcases List.mem_append.1 member with digit | close
  · exact absurd (isDigit_of_isNumeral numeral _ digit) (by decide)
  · exact absurd (List.mem_singleton.1 close) (by decide)

theorem inBraces_append (digits rest : List Char) :
    inBraces digits ++ rest = '\x7b' :: (digits ++ '\x7d' :: rest) := by
  rw [inBraces, List.cons_append, List.append_assoc, List.singleton_append]

theorem drop_behind_digits (digits rest : List Char) :
    (digits ++ '\x7d' :: rest).drop (digits.length + 1) = rest := by
  rw [← List.drop_drop, List.drop_left, List.drop_one, List.tail_cons]

theorem length_inBraces (digits : List Char) : (inBraces digits).length = digits.length + 2 := by
  rw [inBraces, List.length_cons, List.length_append]
  rfl

theorem placeMark_numeralValue {digits : List Char} (numeral : isNumeral digits = true) :
    placeMark (numeralValue digits) = inBraces digits := by
  rw [placeMark, toDigits_numeralValue numeral]
  rfl

def placeDigits? : List Char → Option (List Char)
  | [] => none
  | c :: rest =>
    if c == '\x7b' && isNumeral (rest.takeWhile Char.isDigit) &&
        (rest.dropWhile Char.isDigit).head? == some '\x7d' then
      some (rest.takeWhile Char.isDigit)
    else none

theorem placeDigits?_inBraces {digits : List Char} (numeral : isNumeral digits = true)
    (rest : List Char) : placeDigits? (inBraces digits ++ rest) = some digits := by
  have all := isDigit_of_isNumeral numeral
  have taken : (digits ++ '\x7d' :: rest).takeWhile Char.isDigit = digits := by
    rw [List.takeWhile_append_of_pos all]
    exact List.append_nil digits
  have dropped : (digits ++ '\x7d' :: rest).dropWhile Char.isDigit = '\x7d' :: rest := by
    rw [List.dropWhile_append_of_pos all]
    rfl
  rw [inBraces_append, placeDigits?, taken, dropped, numeral]
  rfl

theorem placeDigits?_eq_some_iff {text digits : List Char} :
    placeDigits? text = some digits ↔ isNumeral digits = true ∧ inBraces digits <+: text := by
  constructor
  · intro found
    unfold placeDigits? at found
    split at found
    · cases found
    · split at found
      · next c rest place =>
        obtain rfl := Option.some.inj found
        simp only [Bool.and_eq_true, beq_iff_eq] at place
        obtain ⟨⟨rfl, numeral⟩, close⟩ := place
        obtain ⟨behind, dropped⟩ := List.head?_eq_some_iff.1 close
        refine ⟨numeral, behind, ?_⟩
        rw [inBraces_append, ← dropped, List.takeWhile_append_dropWhile]
      · cases found
  · rintro ⟨numeral, rest, rfl⟩
    exact placeDigits?_inBraces numeral rest

theorem placeDigits?_of_isBrace {c : Char} (other : isBrace c = false) (rest : List Char) :
    placeDigits? (c :: rest) = none := by
  have closed : (c == '\x7b') = false := (Bool.or_eq_false_iff.1 other).1
  rw [placeDigits?, closed]
  rfl

/-! ### Parts -/

inductive TemplatePart where
  | plain (text : List Char) (braceless : Braceless text)
  | place (digits : List Char) (numeral : isNumeral digits = true)

def filledParts (fill : Nat → Option (List Char)) : List TemplatePart → List Char
  | [] => []
  | .plain text _ :: parts => text ++ filledParts fill parts
  | .place digits _ :: parts =>
    (fill (numeralValue digits)).getD (inBraces digits) ++ filledParts fill parts

def writtenParts (parts : List TemplatePart) : List Char := filledParts (fun _ => none) parts

/-! ### Braces -/

/-- Whether every brace of a text belongs to a place, which is a numeral in braces. -/
def BracesInPlaces (text : List Char) : Prop :=
  ∀ i c, text[i]? = some c → isBrace c = true →
    ∃ start digits, isNumeral digits = true ∧ inBraces digits <+: text.drop start ∧
      start ≤ i ∧ i < start + (inBraces digits).length

theorem BracesInPlaces.of_append {piece rest : List Char} (h : BracesInPlaces (piece ++ rest))
    (closed : ∀ start digits, isNumeral digits = true → start < piece.length →
      inBraces digits <+: (piece ++ rest).drop start →
      start + (inBraces digits).length ≤ piece.length) : BracesInPlaces rest := by
  intro i c here brace
  have shifted : (piece ++ rest)[piece.length + i]? = some c := by
    rw [List.getElem?_append_right (Nat.le_add_right ..), Nat.add_sub_cancel_left, here]
  obtain ⟨start, digits, numeral, begins, before, behind⟩ := h _ c shifted brace
  by_cases inside : start < piece.length
  · have short := closed start digits numeral inside begins
    omega
  · obtain ⟨later, rfl⟩ := Nat.exists_eq_add_of_le (Nat.le_of_not_lt inside)
    rw [← List.drop_drop, List.drop_left] at begins
    exact ⟨later, digits, numeral, begins, by omega, by omega⟩

theorem BracesInPlaces.append {piece rest : List Char} (h : BracesInPlaces rest)
    (closed : ∀ c ∈ piece, isBrace c = true →
      ∃ digits, isNumeral digits = true ∧ inBraces digits = piece) :
    BracesInPlaces (piece ++ rest) := by
  intro i c here brace
  by_cases inside : i < piece.length
  · rw [List.getElem?_append_left inside] at here
    obtain ⟨digits, numeral, rfl⟩ := closed c (List.mem_of_getElem? here) brace
    exact ⟨0, digits, numeral, List.prefix_append .., Nat.zero_le i, by omega⟩
  · rw [List.getElem?_append_right (Nat.le_of_not_lt inside)] at here
    obtain ⟨start, digits, numeral, begins, before, behind⟩ := h _ c here brace
    refine ⟨piece.length + start, digits, numeral, ?_, by omega, by omega⟩
    rwa [← List.drop_drop, List.drop_left]

theorem openBrace_of_begins {text digits : List Char} {start : Nat}
    (begins : inBraces digits <+: text.drop start) : text[start]? = some '\x7b' := by
  obtain ⟨rest, whole⟩ := begins
  have first := congrArg List.head? whole
  rw [List.head?_drop] at first
  exact first.symm

theorem BracesInPlaces.of_cons {c : Char} {rest : List Char} (h : BracesInPlaces (c :: rest))
    (other : isBrace c = false) : BracesInPlaces rest := by
  have split : BracesInPlaces ([c] ++ rest) := h
  refine split.of_append fun start digits numeral inside begins => ?_
  obtain rfl := Nat.lt_one_iff.1 inside
  obtain rfl := Option.some.inj (openBrace_of_begins begins)
  cases other

theorem BracesInPlaces.of_place {digits rest : List Char} (numeral : isNumeral digits = true)
    (h : BracesInPlaces (inBraces digits ++ rest)) : BracesInPlaces rest := by
  refine h.of_append fun start digits' numeral' inside begins => ?_
  cases start with
  | zero =>
    have found := placeDigits?_eq_some_iff.2 ⟨numeral', begins⟩
    rw [List.drop_zero, placeDigits?_inBraces numeral] at found
    obtain rfl := Option.some.inj found
    exact Nat.le_of_eq (Nat.zero_add _)
  | succ start =>
    have opened := openBrace_of_begins begins
    rw [List.getElem?_append_left inside, inBraces, List.getElem?_cons_succ] at opened
    exact absurd rfl (ne_openBrace_of_mem numeral (List.mem_of_getElem? opened))

/-- A text whose braces are in places consists of parts: a first brace opens a place, since no place
begins before it. -/
theorem BracesInPlaces.exists_parts {text : List Char} (h : BracesInPlaces text) :
    ∃ parts, writtenParts parts = text := by
  -- By the length of the text, since a place takes more than its first character.
  generalize size : text.length = n
  induction n using Nat.strongRecOn generalizing text with
  | ind n ih =>
    cases text with
    | nil => exact ⟨[], rfl⟩
    | cons c rest =>
      rw [List.length_cons] at size
      cases brace : isBrace c with
      | false =>
        obtain ⟨parts, written⟩ := ih rest.length (by omega) (h.of_cons brace) rfl
        have alone : Braceless [c] := fun d member => List.mem_singleton.1 member ▸ brace
        exact ⟨.plain [c] alone :: parts, congrArg (c :: ·) written⟩
      | true =>
        obtain ⟨start, digits, numeral, begins, before, -⟩ := h 0 c rfl brace
        obtain rfl := Nat.le_zero.1 before
        obtain ⟨behind, whole⟩ := begins
        rw [List.drop_zero] at whole
        have lengths := congrArg List.length whole
        rw [List.length_append, length_inBraces, List.length_cons] at lengths
        rw [← whole] at h
        obtain ⟨parts, written⟩ := ih behind.length (by omega) (h.of_place numeral) rfl
        refine ⟨.place digits numeral :: parts, ?_⟩
        rw [← whole, ← written]
        rfl

theorem bracesInPlaces_writtenParts (parts : List TemplatePart) :
    BracesInPlaces (writtenParts parts) := by
  induction parts with
  | nil => exact fun i c here => by cases here
  | cons part parts ih =>
    cases part with
    | plain text braceless =>
      refine ih.append fun c member brace => ?_
      rw [braceless c member] at brace
      cases brace
    | place digits numeral => exact ih.append fun c _ _ => ⟨digits, numeral, rfl⟩

end PathGuard
