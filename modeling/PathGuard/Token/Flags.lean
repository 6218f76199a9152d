/-!
# Flags of a token

What is remembered of a token besides its kind and value, packed into the bits of a number when it
is shown.
-/

namespace PathGuard

/-- Marks on a token: a line end lies before it, it misses its end, it was written with escapes of
code points, and how its digits are written. -/
structure TokenFlags where
  precedingLineBreak : Bool
  unterminated : Bool
  unicodeEscape : Bool
  scientific : Bool
  hexadecimal : Bool
  binary : Bool
  octal : Bool
  separator : Bool
  deriving DecidableEq, Repr

namespace TokenFlags

def none : TokenFlags := ⟨false, false, false, false, false, false, false, false⟩

instance : Inhabited TokenFlags := ⟨none⟩

def union (a b : TokenFlags) : TokenFlags where
  precedingLineBreak := a.precedingLineBreak || b.precedingLineBreak
  unterminated := a.unterminated || b.unterminated
  unicodeEscape := a.unicodeEscape || b.unicodeEscape
  scientific := a.scientific || b.scientific
  hexadecimal := a.hexadecimal || b.hexadecimal
  binary := a.binary || b.binary
  octal := a.octal || b.octal
  separator := a.separator || b.separator

/-- The marks as bits, from the lowest on in the order of the fields. -/
def bits (f : TokenFlags) : Nat :=
  f.precedingLineBreak.toNat + 2 * f.unterminated.toNat + 4 * f.unicodeEscape.toNat
    + 8 * f.scientific.toNat + 16 * f.hexadecimal.toNat + 32 * f.binary.toNat
    + 64 * f.octal.toNat + 128 * f.separator.toNat

theorem union_none (f : TokenFlags) : f.union none = f := by
  simp [union, none]

theorem none_union (f : TokenFlags) : none.union f = f := by
  simp [union, none]

theorem union_assoc (f g h : TokenFlags) : (f.union g).union h = f.union (g.union h) := by
  simp [union, Bool.or_assoc]

end TokenFlags

end PathGuard
