import Mathlib.Data.List.Basic
/-!
# Numerals

A number is written as a numeral, with decimal digits and without leading zeros, and it is written
as no other text: a numeral is the way its value is written.
-/

namespace PathGuard

/-- Whether a text is a decimal number without leading zeros. -/
def isNumeral (text : List Char) : Bool :=
  text == ['0'] || (text.head?.any (· != '0') && text.all Char.isDigit)

def numeralValue (digits : List Char) : Nat := Nat.ofDigitChars 10 digits 0

theorem isDigit_of_isNumeral {text : List Char} (numeral : isNumeral text = true) :
    ∀ c ∈ text, c.isDigit = true := by
  rw [isNumeral, Bool.or_eq_true, beq_iff_eq, Bool.and_eq_true, List.all_eq_true] at numeral
  rcases numeral with rfl | ⟨-, digits⟩
  · exact List.all_eq_true.1 rfl
  · exact digits

theorem digitChar_of_isDigit {c : Char} (digit : c.isDigit = true) :
    Nat.digitChar (c.toNat - '0'.toNat) = c ∧ c.toNat - '0'.toNat < 10 := by
  obtain ⟨low, high⟩ := Char.isDigit_iff_toNat.1 digit
  have zero : '0'.toNat = 48 := rfl
  have nine : '9'.toNat = 57 := rfl
  have small : c.toNat - '0'.toNat < 10 := by omega
  refine ⟨?_, small⟩
  apply Char.toNat_inj.1
  rw [Nat.toNat_digitChar_of_lt_ten small]
  omega

theorem toDigits_append_digits {n : Nat} (positive : 0 < n) {text : List Char}
    (digits : ∀ c ∈ text, c.isDigit = true) :
    Nat.toDigits 10 n ++ text = Nat.toDigits 10 (Nat.ofDigitChars 10 text n) := by
  induction text generalizing n with
  | nil => rw [List.append_nil, Nat.ofDigitChars_nil]
  | cons c text ih =>
    obtain ⟨digit, more⟩ := List.forall_mem_cons.1 digits
    obtain ⟨same, small⟩ := digitChar_of_isDigit digit
    have next := Nat.toDigits_append_toDigits (by decide) positive small
    rw [Nat.toDigits_of_lt_base small, same] at next
    rw [Nat.ofDigitChars_cons, ← ih (by omega) more, ← next, List.append_assoc]
    rfl

/-- A numeral is the way its value is written. -/
theorem toDigits_numeralValue {text : List Char} (numeral : isNumeral text = true) :
    Nat.toDigits 10 (numeralValue text) = text := by
  have digits := isDigit_of_isNumeral numeral
  rw [isNumeral, Bool.or_eq_true, beq_iff_eq, Bool.and_eq_true] at numeral
  rcases numeral with rfl | ⟨first, -⟩
  · rfl
  · cases text with
    | nil => cases first
    | cons c text =>
      obtain ⟨digit, more⟩ := List.forall_mem_cons.1 digits
      obtain ⟨same, small⟩ := digitChar_of_isDigit digit
      have other : c ≠ '0' := bne_iff_ne.1 first
      have positive : 0 < c.toNat - '0'.toNat := by
        apply Nat.pos_of_ne_zero
        intro zero
        rw [zero] at same
        exact other same.symm
      have whole := toDigits_append_digits positive more
      rw [Nat.toDigits_of_lt_base small, same] at whole
      rw [numeralValue, Nat.ofDigitChars_cons, Nat.mul_zero, Nat.zero_add, ← whole]
      rfl

theorem eq_zero_of_head?_toDigits {n : Nat} (zero : (Nat.toDigits 10 n).head? = some '0') :
    n = 0 := by
  induction n using Nat.strongRecOn with
  | ind n ih =>
    rw [Nat.toDigits_eq_if (by decide)] at zero
    split at zero
    · exact Nat.digitChar_eq_zero.1 (Option.some.inj zero)
    · rw [List.head?_append_of_ne_nil _ Nat.toDigits_ne_nil] at zero
      have tens := ih (n / 10) (by omega) zero
      omega

theorem isNumeral_toDigits (n : Nat) : isNumeral (Nat.toDigits 10 n) = true := by
  rw [isNumeral, Bool.or_eq_true, beq_iff_eq, Bool.and_eq_true, List.all_eq_true]
  by_cases zero : n = 0
  · subst zero
    exact .inl rfl
  · refine .inr ⟨?_, fun c => Nat.isDigit_of_mem_toDigits (by decide) (by decide)⟩
    cases digits : Nat.toDigits 10 n with
    | nil => exact absurd digits Nat.toDigits_ne_nil
    | cons c more =>
      rw [List.head?_cons, Option.any_some, bne_iff_ne]
      rintro rfl
      exact zero (eq_zero_of_head?_toDigits (by rw [digits]; rfl))

end PathGuard
