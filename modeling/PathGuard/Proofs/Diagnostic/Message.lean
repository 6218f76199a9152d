import PathGuard.Proofs.Diagnostic.Place
/-!
# Filling the places of a message

A template is filled in one pass for each argument, and a pass goes over all that the passes before
it have put in. When the braces of the template stand in its places only, and no argument has
braces, a pass meets no place that was not in the template. Then the passes together do what a
single pass does that puts each argument in its own places.
-/

namespace PathGuard

/-! ### Filling in one pass -/

/-- Fills the places of a text in one pass, from left to right: a place whose number has a value
gives way to the value, and any other one stays as it is, like all that is no place. `skip`
characters are left out first. -/
def fillPlaces (fill : Nat → Option (List Char)) : (skip : Nat) → List Char → List Char
  | _, [] => []
  | skip + 1, _ :: rest => fillPlaces fill skip rest
  | 0, c :: rest =>
    match placeDigits? (c :: rest) with
    | some digits =>
      (fill (numeralValue digits)).getD (inBraces digits) ++
        fillPlaces fill (digits.length + 1) rest
    | none => c :: fillPlaces fill 0 rest

section

variable (fill : Nat → Option (List Char))

theorem fillPlaces_skip (skip : Nat) (text : List Char) :
    fillPlaces fill skip text = fillPlaces fill 0 (text.drop skip) := by
  induction text generalizing skip with
  | nil => rw [List.drop_nil, fillPlaces, fillPlaces]
  | cons c rest ih =>
    cases skip with
    | zero => rw [List.drop_zero]
    | succ skip => rw [fillPlaces, List.drop_succ_cons, ih]

theorem fillPlaces_place {digits : List Char} (numeral : isNumeral digits = true)
    (rest : List Char) :
    fillPlaces fill 0 (inBraces digits ++ rest) =
      (fill (numeralValue digits)).getD (inBraces digits) ++ fillPlaces fill 0 rest := by
  have found := placeDigits?_inBraces numeral rest
  rw [inBraces_append] at found ⊢
  rw [fillPlaces, found]
  dsimp only
  rw [fillPlaces_skip, drop_behind_digits]

theorem fillPlaces_braceless {text : List Char} (braceless : Braceless text) (rest : List Char) :
    fillPlaces fill 0 (text ++ rest) = text ++ fillPlaces fill 0 rest := by
  induction text with
  | nil => rfl
  | cons c text ih =>
    obtain ⟨other, more⟩ := List.forall_mem_cons.1 braceless
    rw [List.cons_append, fillPlaces, placeDigits?_of_isBrace other]
    dsimp only
    rw [ih more, List.cons_append]

end

/-- Places that are filled with text without braces are not filled again: a second pass fills those
that the first one has left. -/
theorem fillPlaces_filledParts {fill next : Nat → Option (List Char)}
    (braceless : ∀ number value, fill number = some value → Braceless value)
    (parts : List TemplatePart) :
    fillPlaces next 0 (filledParts fill parts) =
      filledParts (fun number => (fill number).or (next number)) parts := by
  induction parts with
  | nil => rfl
  | cons part parts ih =>
    cases part with
    | plain text clear => rw [filledParts, filledParts, fillPlaces_braceless next clear, ih]
    | place digits numeral =>
      rw [filledParts, filledParts]
      cases filled : fill (numeralValue digits) with
      | none => rw [Option.getD_none, fillPlaces_place next numeral, ih, Option.none_or]
      | some value =>
        rw [Option.getD_some, fillPlaces_braceless next (braceless _ value filled), ih,
          Option.some_or, Option.getD_some]

theorem fillPlaces_writtenParts (fill : Nat → Option (List Char)) (parts : List TemplatePart) :
    fillPlaces fill 0 (writtenParts parts) = filledParts fill parts :=
  fillPlaces_filledParts (fun _ _ found => by cases found) parts

/-! ### The pass for one argument -/

def onlyAt (number : Nat) (value : List Char) : Nat → Option (List Char) := fun k =>
  if k = number then some value else none

theorem replaceMark_skip (mark value : List Char) (skip : Nat) (text : List Char) :
    replaceMark mark value skip text = replaceMark mark value 0 (text.drop skip) := by
  induction text generalizing skip with
  | nil => rw [List.drop_nil, replaceMark, replaceMark]
  | cons c rest ih =>
    cases skip with
    | zero => rw [List.drop_zero]
    | succ skip => rw [replaceMark, List.drop_succ_cons, ih]

theorem replaceMark_placeMark (number : Nat) (value rest : List Char) :
    replaceMark (placeMark number) value 0 (placeMark number ++ rest) =
      value ++ replaceMark (placeMark number) value 0 rest := by
  have begins : (placeMark number).isPrefixOf (placeMark number ++ rest) = true :=
    List.isPrefixOf_iff_prefix.2 (List.prefix_append ..)
  have whole : placeMark number ++ rest =
      '\x7b' :: (Nat.toDigits 10 number ++ ['\x7d'] ++ rest) := rfl
  have length : (placeMark number).length - 1 = (Nat.toDigits 10 number ++ ['\x7d']).length := rfl
  rw [whole] at begins ⊢
  rw [replaceMark, if_pos begins, replaceMark_skip, length, List.drop_left]

theorem replaceMark_of_differs {mark value rest : List Char} {c : Char}
    (other : ¬mark <+: c :: rest) :
    replaceMark mark value 0 (c :: rest) = c :: replaceMark mark value 0 rest := by
  rw [replaceMark, if_neg (mt List.isPrefixOf_iff_prefix.1 other)]

/-- A place begins at an opening brace, so no other place begins inside of it. -/
theorem replaceMark_behind (number : Nat) (value : List Char) {text : List Char}
    (inside : ∀ c ∈ text, c ≠ '\x7b') (rest : List Char) :
    replaceMark (placeMark number) value 0 (text ++ rest) =
      text ++ replaceMark (placeMark number) value 0 rest := by
  induction text with
  | nil => rfl
  | cons c text ih =>
    obtain ⟨other, more⟩ := List.forall_mem_cons.1 inside
    have differs : ¬placeMark number <+: c :: (text ++ rest) := by
      rintro ⟨behind, same⟩
      exact other (List.cons.inj same).1.symm
    rw [List.cons_append, replaceMark_of_differs differs, ih more, List.cons_append]

theorem eq_numeralValue_of_begins {number : Nat} {digits rest : List Char}
    (numeral : isNumeral digits = true) (begins : placeMark number <+: inBraces digits ++ rest) :
    number = numeralValue digits := by
  have found := placeDigits?_eq_some_iff.2 ⟨isNumeral_toDigits number, begins⟩
  rw [placeDigits?_inBraces numeral, Option.some.injEq] at found
  rw [found]
  exact Nat.ofDigitChars_ten_toDigits.symm

theorem replaceMark_other {number : Nat} {digits : List Char} (value : List Char)
    (numeral : isNumeral digits = true) (other : numeralValue digits ≠ number) (rest : List Char) :
    replaceMark (placeMark number) value 0 (inBraces digits ++ rest) =
      inBraces digits ++ replaceMark (placeMark number) value 0 rest := by
  have differs : ¬placeMark number <+: inBraces digits ++ rest := fun begins =>
    other (eq_numeralValue_of_begins numeral begins).symm
  rw [inBraces, List.cons_append] at differs ⊢
  rw [replaceMark_of_differs differs,
    replaceMark_behind number value fun c => ne_openBrace_of_mem numeral, List.cons_append]

theorem fillPlaces_onlyAt (number : Nat) (value : List Char) (skip : Nat) (text : List Char) :
    fillPlaces (onlyAt number value) skip text =
      replaceMark (placeMark number) value 0 (text.drop skip) := by
  fun_induction fillPlaces (onlyAt number value) skip text with
  | case1 skip => rw [List.drop_nil, replaceMark]
  | case2 skip c rest ih => rw [ih, List.drop_succ_cons]
  | case3 c rest digits found ih =>
    obtain ⟨numeral, behind, whole⟩ := placeDigits?_eq_some_iff.1 found
    have tail := (List.cons.inj (inBraces_append digits behind ▸ whole)).2
    have onward : rest.drop (digits.length + 1) = behind := by rw [← tail, drop_behind_digits]
    rw [ih, onward, List.drop_zero, ← whole, onlyAt]
    by_cases same : numeralValue digits = number
    · rw [if_pos same, Option.getD_some, ← placeMark_numeralValue numeral, same,
        replaceMark_placeMark]
    -- This pass leaves the place out as a whole, and the other one goes through its characters.
    · rw [if_neg same, Option.getD_none, replaceMark_other value numeral same]
  | case4 c rest missed ih =>
    have differs : ¬placeMark number <+: c :: rest := by
      intro begins
      rw [placeDigits?_eq_some_iff.2 ⟨isNumeral_toDigits number, begins⟩] at missed
      cases missed
    rw [ih, List.drop_zero, List.drop_zero, replaceMark_of_differs differs]

/-! ### The passes for all arguments -/

def argumentAt (arguments : List String) (number : Nat) : Option (List Char) :=
  arguments[number]?.map String.toList

theorem braceless_of_argumentAt {arguments : List String}
    (braceless : ∀ value ∈ arguments, Braceless value.toList) (number : Nat) (value : List Char)
    (found : argumentAt arguments number = some value) : Braceless value := by
  obtain ⟨argument, here, rfl⟩ := Option.map_eq_some_iff.1 found
  exact braceless argument (List.mem_of_getElem? here)

theorem argumentAt_concat (done : List String) (value : String) :
    argumentAt (done ++ [value]) = fun number =>
      (argumentAt done number).or (onlyAt done.length value.toList number) := by
  funext number
  unfold argumentAt onlyAt
  by_cases early : number < done.length
  · rw [List.getElem?_append_left early, List.getElem?_eq_getElem early]
    rfl
  · rw [List.getElem?_eq_none (Nat.le_of_not_lt early), Option.map_none, Option.none_or,
      List.getElem?_append_right (Nat.le_of_not_lt early), List.getElem?_singleton]
    by_cases next : number = done.length
    · rw [if_pos next, if_pos (by omega)]
      rfl
    · rw [if_neg next, if_neg (by omega)]
      rfl

/-- When the passes for some arguments have put these in their places, the other passes put the
other arguments in theirs: what the earlier ones put in has no braces, and what they left is a
template. -/
theorem fillFrom_filledParts {done more : List String}
    (braceless : ∀ value ∈ done ++ more, Braceless value.toList) (parts : List TemplatePart) :
    fillFrom done.length (filledParts (argumentAt done) parts) more =
      filledParts (argumentAt (done ++ more)) parts := by
  induction more generalizing done with
  | nil => rw [fillFrom, List.append_nil]
  | cons value more ih =>
    have filled := braceless_of_argumentAt fun other member =>
      braceless other (List.mem_append_left _ member)
    have pass := fillPlaces_onlyAt done.length value.toList 0 (filledParts (argumentAt done) parts)
    rw [List.drop_zero, fillPlaces_filledParts filled, ← argumentAt_concat] at pass
    rw [List.append_cons] at braceless
    have rest := ih braceless
    rw [List.length_append, List.length_singleton] at rest
    rw [fillFrom, ← pass, rest, ← List.append_cons]

/-- Filling a template with one argument after another fills all its places at once: when its braces
are in places and the arguments have none, each place with the number of an argument gives way to
the argument, and nothing else changes. -/
theorem fillTemplate_eq_fillPlaces {template : String} {arguments : List String}
    (placed : BracesInPlaces template.toList)
    (braceless : ∀ value ∈ arguments, Braceless value.toList) :
    fillTemplate template arguments =
      String.ofList (fillPlaces (argumentAt arguments) 0 template.toList) := by
  obtain ⟨parts, written⟩ := placed.exists_parts
  have passes : fillFrom 0 (writtenParts parts) arguments =
      filledParts (argumentAt arguments) parts := @fillFrom_filledParts [] arguments braceless parts
  have once := fillPlaces_writtenParts (argumentAt arguments) parts
  rw [written] at passes once
  rw [fillTemplate, passes, once]

theorem fillTemplate_eq_fillPlaces_mixed :
    let template := "\x7b1\x7d, \x7b0\x7d, \x7b1\x7d or \x7b12\x7d"
    let arguments := ["a.b", "c"]
    BracesInPlaces template.toList ∧ (∀ value ∈ arguments, Braceless value.toList) ∧
      fillTemplate template arguments =
        String.ofList (fillPlaces (argumentAt arguments) 0 template.toList) ∧
      fillTemplate template arguments = "c, a.b, c or \x7b12\x7d" := by
  intro template arguments
  have written : writtenParts [.place ['1'] rfl, .plain [',', ' '] (by decide), .place ['0'] rfl,
      .plain [',', ' '] (by decide), .place ['1'] rfl, .plain [' ', 'o', 'r', ' '] (by decide),
      .place ['1', '2'] rfl] = template.toList := by decide +kernel
  have placed : BracesInPlaces template.toList := written ▸ bracesInPlaces_writtenParts _
  have braceless : ∀ value ∈ arguments, Braceless value.toList := by decide
  have filled := fillTemplate_eq_fillPlaces placed braceless
  refine ⟨placed, braceless, filled, ?_⟩
  decide +kernel

/-- Braces of an argument can make a place, which a later pass fills. -/
example : fillTemplate "\x7b0\x7d" ["\x7b1\x7d", "a"] = "a" := by decide +kernel

end PathGuard
