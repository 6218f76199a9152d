import Mathlib.Data.List.DropRight
import PathGuard.Proofs.Token.Tiling
import PathGuard.Proofs.Token.Word
import PathGuard.Text.Lines
/-!
# Cutting a text into lines

Where a text is cut in two, the lines that begin in the first part are the lines of that part alone,
unless the cut is between a carriage return and its line feed. So the line of the cut is the last
one of the first part, its column is what the first part has behind its last line break, and the
text of the line goes on in the second part up to the first line break there.
-/

namespace PathGuard

def endsLine (c : Char) : Bool := c = '\n' || c = '\r'

def inLine (c : Char) : Bool := !endsLine c

theorem endsLine_iff {c : Char} : endsLine c = true ↔ c = '\n' ∨ c = '\r' := by
  rw [endsLine, Bool.or_eq_true, decide_eq_true_eq, decide_eq_true_eq]

theorem not_inLine {c : Char} : ¬inLine c = true ↔ endsLine c = true := by
  rw [inLine, Bool.not_eq_true', Bool.not_eq_false]

/-- Whether a text is cut in two between a carriage return and its line feed. -/
def CutsBreak (before rest : List Char) : Prop :=
  before.getLast? = some '\r' ∧ rest.head? = some '\n'

theorem not_cutsBreak_of_inLine {before rest : List Char}
    (goes : ∀ c ∈ rest.head?, inLine c = true) : ¬CutsBreak before rest := by
  rintro ⟨-, feed⟩
  cases goes _ feed

theorem not_cutsBreak_single {c : Char} {rest : List Char}
    (single : ∀ more, c = '\r' → rest = '\n' :: more → False) : ¬CutsBreak [c] rest := by
  rintro ⟨carriage, feed⟩
  obtain ⟨more, rfl⟩ := List.head?_eq_some_iff.1 feed
  exact single more (Option.some.inj carriage) rfl

theorem byteLength_carriage_feed (rest : List Char) :
    byteLength ('\r' :: '\n' :: rest) = 2 + byteLength rest := by
  rw [byteLength, byteLength, ← Nat.add_assoc]
  rfl

theorem byteLength_cons_break {c : Char} (ends : endsLine c = true) (rest : List Char) :
    byteLength (c :: rest) = 1 + byteLength rest := by
  rcases endsLine_iff.1 ends with rfl | rfl <;> rfl

/-! ### Beginnings of lines -/

/-- Where lines begin behind the line breaks of a text that has `offset` bytes before it. -/
def lineStarts (offset : Nat) : List Char → List Nat
  | [] => []
  | '\r' :: '\n' :: rest => (offset + 2) :: lineStarts (offset + 2) rest
  | c :: rest =>
    if endsLine c then (offset + 1) :: lineStarts (offset + 1) rest
    else lineStarts (offset + c.utf8Size) rest

theorem lineStarts_carriage_feed (offset : Nat) (rest : List Char) :
    lineStarts offset ('\r' :: '\n' :: rest) = (offset + 2) :: lineStarts (offset + 2) rest := by
  rw [lineStarts]

theorem lineStarts_cons_break (offset : Nat) {c : Char} {rest : List Char}
    (ends : endsLine c = true) (whole : ¬CutsBreak [c] rest) :
    lineStarts offset (c :: rest) = (offset + 1) :: lineStarts (offset + 1) rest := by
  rw [lineStarts, if_pos ends]
  rintro more rfl rfl
  exact whole ⟨rfl, rfl⟩

theorem lineStarts_cons_inLine (offset : Nat) {c : Char} {rest : List Char}
    (goes : ¬endsLine c = true) :
    lineStarts offset (c :: rest) = lineStarts (offset + c.utf8Size) rest := by
  rw [lineStarts, if_neg goes]
  rintro more rfl rfl
  exact goes rfl

theorem addLineStarts_toList (starts : Array Nat) (offset : Nat) (text : List Char) :
    (addLineStarts starts offset text).toList = starts.toList ++ lineStarts offset text := by
  induction offset, text using lineStarts.induct generalizing starts with
  | case1 offset => rw [addLineStarts, lineStarts, List.append_nil]
  | case2 offset rest ih =>
    rw [addLineStarts, ih, Array.toList_push, List.append_assoc, lineStarts_carriage_feed]
    rfl
  | case3 offset c rest single ends ih =>
    rw [addLineStarts, if_pos (by exact ends), ih, Array.toList_push, List.append_assoc,
      lineStarts_cons_break offset ends (not_cutsBreak_single single)]
    · rfl
    · exact single
  | case4 offset c rest single goes ih =>
    rw [addLineStarts, if_neg (by exact goes), ih, lineStarts_cons_inLine offset goes]
    exact single

theorem lineStarts_bounds {offset start : Nat} {text : List Char}
    (member : start ∈ lineStarts offset text) :
    offset < start ∧ start ≤ offset + byteLength text := by
  induction offset, text using lineStarts.induct with
  | case1 offset => cases member
  | case2 offset rest ih =>
    have size := byteLength_carriage_feed rest
    rw [lineStarts_carriage_feed, List.mem_cons] at member
    rcases member with rfl | later
    · omega
    · have bounds := ih later
      omega
  | case3 offset c rest single ends ih =>
    have size := byteLength_cons_break ends rest
    rw [lineStarts_cons_break offset ends (not_cutsBreak_single single), List.mem_cons] at member
    rcases member with rfl | later
    · omega
    · have bounds := ih later
      omega
  | case4 offset c rest single goes ih =>
    have positive := c.utf8Size_pos
    rw [lineStarts_cons_inLine offset goes] at member
    have bounds := ih member
    rw [byteLength]
    omega

theorem lineStarts_append (offset : Nat) {before rest : List Char}
    (whole : ¬CutsBreak before rest) :
    lineStarts offset (before ++ rest) =
      lineStarts offset before ++ lineStarts (offset + byteLength before) rest := by
  have tail {c : Char} {before : List Char} (whole : ¬CutsBreak (c :: before) rest) :
      ¬CutsBreak before rest := by
    rintro ⟨last, feed⟩
    apply whole
    rw [CutsBreak, List.getLast?_cons, last]
    exact ⟨rfl, feed⟩
  induction offset, before using lineStarts.induct with
  | case1 offset => rfl
  | case2 offset before ih =>
    rw [List.cons_append, List.cons_append, lineStarts_carriage_feed, lineStarts_carriage_feed,
      ih (tail (tail whole)), byteLength_carriage_feed, List.cons_append, Nat.add_assoc]
  | case3 offset c before single ends ih =>
    have alone : ¬CutsBreak [c] (before ++ rest) := by
      rintro ⟨carriage, feed⟩
      cases before with
      | nil => exact whole ⟨carriage, feed⟩
      | cons first before => exact not_cutsBreak_single single ⟨carriage, feed⟩
    rw [List.cons_append, lineStarts_cons_break offset ends alone, ih (tail whole),
      lineStarts_cons_break offset ends (not_cutsBreak_single single),
      byteLength_cons_break ends, List.cons_append, Nat.add_assoc]
  | case4 offset c before single goes ih =>
    rw [List.cons_append, lineStarts_cons_inLine offset goes, ih (tail whole),
      lineStarts_cons_inLine offset goes, byteLength, ← Nat.add_assoc]

theorem lineStarts_of_inLine (offset : Nat) {text : List Char}
    (goes : ∀ c ∈ text, inLine c = true) : lineStarts offset text = [] := by
  induction text generalizing offset with
  | nil => rfl
  | cons c text ih =>
    have first := goes c (List.mem_cons_self ..)
    rw [lineStarts_cons_inLine offset (fun ends => not_inLine.2 ends first)]
    exact ih _ fun c member => goes c (List.mem_cons_of_mem _ member)

theorem lineStarts_inLine_append (offset : Nat) {line rest : List Char}
    (goes : ∀ c ∈ line, inLine c = true) :
    lineStarts offset (line ++ rest) = lineStarts (offset + byteLength line) rest := by
  have whole : ¬CutsBreak line rest := by
    rintro ⟨carriage, -⟩
    cases goes _ (List.mem_of_mem_getLast? carriage)
  rw [lineStarts_append offset whole, lineStarts_of_inLine offset goes, List.nil_append]

theorem lineStarts_getLast? (offset : Nat) {text : List Char} {c : Char}
    (last : text.getLast? = some c) (ends : endsLine c = true) :
    (lineStarts offset text).getLast? = some (offset + byteLength text) := by
  induction offset, text using lineStarts.induct with
  | case1 offset => cases last
  | case2 offset rest ih =>
    rw [lineStarts_carriage_feed, List.getLast?_cons, byteLength_carriage_feed, ← Nat.add_assoc]
    cases rest with
    | nil => rfl
    | cons first rest =>
      rw [List.getLast?_cons_cons, List.getLast?_cons_cons] at last
      rw [ih last]
      rfl
  | case3 offset d rest single breaks ih =>
    rw [lineStarts_cons_break offset breaks (not_cutsBreak_single single), List.getLast?_cons,
      byteLength_cons_break breaks, ← Nat.add_assoc]
    cases rest with
    | nil => rfl
    | cons first rest =>
      rw [List.getLast?_cons_cons] at last
      rw [ih last]
      rfl
  | case4 offset d rest single goes ih =>
    rw [lineStarts_cons_inLine offset goes, byteLength, ← Nat.add_assoc]
    cases rest with
    | nil =>
      rw [List.getLast?_singleton, Option.some.injEq] at last
      exact absurd (last ▸ ends) goes
    | cons first rest =>
      rw [List.getLast?_cons_cons] at last
      exact ih last

/-! ### The line of a cut -/

def wholeLines (text : List Char) : List Char := text.rdropWhile inLine

def lastLine (text : List Char) : List Char := text.rtakeWhile inLine

def firstLine (text : List Char) : List Char := text.takeWhile inLine

theorem wholeLines_append_lastLine (text : List Char) : wholeLines text ++ lastLine text = text :=
  List.rdropWhile_append_rtakeWhile

theorem inLine_of_mem_lastLine {c : Char} {text : List Char} (member : c ∈ lastLine text) :
    inLine c = true :=
  List.mem_rtakeWhile_imp member

theorem inLine_of_mem_firstLine {c : Char} {text : List Char} (member : c ∈ firstLine text) :
    inLine c = true :=
  List.mem_takeWhile_imp member

theorem byteLength_wholeLines (text : List Char) :
    (0 :: lineStarts 0 text).getLast? = some (byteLength (wholeLines text)) := by
  have starts : lineStarts 0 text = lineStarts 0 (wholeLines text) := by
    have whole : ¬CutsBreak (wholeLines text) (lastLine text) := not_cutsBreak_of_inLine
      fun c first => inLine_of_mem_lastLine (List.mem_of_mem_head? first)
    calc
      lineStarts 0 text = lineStarts 0 (wholeLines text ++ lastLine text) := by
        rw [wholeLines_append_lastLine]
      _ = lineStarts 0 (wholeLines text) := by
        rw [lineStarts_append 0 whole, lineStarts_of_inLine _ fun c => inLine_of_mem_lastLine,
          List.append_nil]
  rw [starts, List.getLast?_cons]
  by_cases empty : wholeLines text = []
  · rw [empty]
    rfl
  · have ends := not_inLine.1 (List.rdropWhile_last_not inLine text empty)
    rw [lineStarts_getLast? 0 (List.getLast?_eq_some_getLast empty) ends, Nat.zero_add]
    rfl

theorem firstLine_ends (offset : Nat) (text : List Char) :
    ∃ ending rest, text = firstLine text ++ ending ++ rest ∧ (∀ c ∈ ending, endsLine c = true) ∧
      (lineStarts offset text).head?.getD (offset + byteLength text) =
        offset + byteLength (firstLine text ++ ending) := by
  have split_ : firstLine text ++ text.dropWhile inLine = text := List.takeWhile_append_dropWhile
  have starts : lineStarts offset (firstLine text ++ text.dropWhile inLine) =
      lineStarts (offset + byteLength (firstLine text)) (text.dropWhile inLine) :=
    lineStarts_inLine_append offset fun c => inLine_of_mem_firstLine
  rw [split_] at starts
  cases tail : text.dropWhile inLine with
  | nil =>
    rw [tail, List.append_nil] at split_
    refine ⟨[], [], by rw [List.append_nil, List.append_nil, split_], by simp, ?_⟩
    rw [starts, tail, List.append_nil, split_]
    rfl
  | cons c more =>
    have ends : endsLine c = true := by
      apply not_inLine.1
      have first := List.head?_dropWhile_not inLine text
      rw [tail] at first
      exact Bool.eq_false_iff.1 first
    -- a carriage return ends the line together with a line feed behind it
    by_cases pair : CutsBreak [c] more
    · obtain ⟨more, rfl⟩ := List.head?_eq_some_iff.1 pair.2
      obtain rfl : c = '\r' := Option.some.inj pair.1
      refine ⟨['\r', '\n'], more, ?_, List.all_eq_true.1 (by decide), ?_⟩
      · rw [List.append_assoc, List.cons_append, List.cons_append, List.nil_append, ← tail, split_]
      · rw [starts, tail, lineStarts_carriage_feed, byteLength_append, ← Nat.add_assoc]
        rfl
    · refine ⟨[c], more, ?_, ?_, ?_⟩
      · rw [List.append_assoc, List.singleton_append, ← tail, split_]
      · intro d member
        rwa [List.mem_singleton.1 member]
      · rw [starts, tail, lineStarts_cons_break _ ends pair, byteLength_append,
          byteLength_cons_break ends, ← Nat.add_assoc]
        rfl

theorem sliceBytes_middle (before middle rest : List Char) :
    sliceBytes (before ++ middle ++ rest) (byteLength before) (byteLength (before ++ middle)) =
      some middle := by
  rw [sliceBytes, byteLength_append, if_pos (Nat.le_add_right _ _), Nat.add_sub_cancel_left,
    List.append_assoc, dropBytes_byteLength, Option.bind_some, takeBytes_byteLength]

theorem dropEnding {line ending : List Char} (goes : ∀ c ∈ line, inLine c = true)
    (ends : ∀ c ∈ ending, endsLine c = true) : (line ++ ending).rdropWhile endsLine = line := by
  induction ending using List.reverseRecOn with
  | nil =>
    rw [List.append_nil, List.rdropWhile_eq_self_iff]
    intro some_ last
    exact not_inLine.2 last (goes _ (List.getLast_mem some_))
  | append_singleton ending c ih =>
    have last := ends c (List.mem_append_right _ (List.mem_singleton_self c))
    rw [← List.append_assoc, List.rdropWhile_concat_pos _ _ _ last]
    exact ih fun c member => ends c (List.mem_append_left _ member)

namespace LineMap

variable {before rest : List Char}

theorem starts_ofText (text : List Char) :
    (ofText text).starts = (0 :: lineStarts 0 text).toArray := by
  apply Array.toList_inj.1
  rw [ofText, addLineStarts_toList]
  rfl

theorem lineCount_ofText (text : List Char) :
    (ofText text).lineCount = (lineStarts 0 text).length + 1 := by
  rw [lineCount, starts_ofText]
  rfl

theorem lineAt_cut (whole : ¬CutsBreak before rest) :
    (ofText (before ++ rest)).lineAt (byteLength before) = (lineStarts 0 before).length := by
  have early : (lineStarts 0 before).countP (· ≤ byteLength before) =
      (lineStarts 0 before).length := by
    rw [List.countP_eq_length]
    intro start member
    have bounds := lineStarts_bounds member
    exact decide_eq_true (by omega)
  have late : (lineStarts (byteLength before) rest).countP (· ≤ byteLength before) = 0 := by
    rw [List.countP_eq_zero]
    intro start member
    have bounds := lineStarts_bounds member
    exact fun small => absurd (of_decide_eq_true small) (by omega)
  rw [lineAt, starts_ofText, List.countP_toArray, lineStarts_append 0 whole, Nat.zero_add,
    List.countP_cons, List.countP_append, early, late]
  rfl

theorem lineStart?_cut (whole : ¬CutsBreak before rest) :
    (ofText (before ++ rest)).lineStart? (lineStarts 0 before).length =
      some (byteLength (wholeLines before)) := by
  rw [← byteLength_wholeLines, lineStart?, starts_ofText, List.getElem?_toArray,
    lineStarts_append 0 whole, ← List.cons_append, List.getLast?_eq_getElem?]
  exact List.getElem?_append_left (Nat.lt_succ_self _)

theorem nextLineStart?_cut (whole : ¬CutsBreak before rest) :
    (ofText (before ++ rest)).lineStart? ((lineStarts 0 before).length + 1) =
      (lineStarts (byteLength before) rest).head? := by
  rw [lineStart?, starts_ofText, List.getElem?_toArray, lineStarts_append 0 whole, Nat.zero_add,
    List.getElem?_cons_succ, List.getElem?_append_right (Nat.le_refl _), Nat.sub_self,
    List.head?_eq_getElem?]

/-- The line and column at which a text goes on behind its first part. -/
theorem position_cut (whole : ¬CutsBreak before rest) :
    (ofText (before ++ rest)).position (byteLength before) =
      ⟨(lineStarts 0 before).length, (lastLine before).length⟩ := by
  have size : byteLength before = byteLength (wholeLines before ++ lastLine before) := by
    rw [wholeLines_append_lastLine]
  have fits : byteLength before ≤ byteLength (before ++ rest) := by
    rw [byteLength_append]
    exact Nat.le_add_right _ _
  have earlier : byteLength (wholeLines before) ≤ byteLength before := by
    rw [size, byteLength_append]
    exact Nat.le_add_right _ _
  have slice := sliceBytes_middle (wholeLines before) (lastLine before) rest
  rw [wholeLines_append_lastLine] at slice
  have text : (ofText (before ++ rest)).text = before ++ rest := rfl
  rw [position, lineAt_cut whole, lineStart?_cut whole, text, Nat.min_eq_left fits,
    Option.getD_some, Nat.min_eq_left earlier, slice]
  rfl

theorem lineText_cut (whole : ¬CutsBreak before rest) :
    (ofText (before ++ rest)).lineText (lineStarts 0 before).length =
      lastLine before ++ firstLine rest := by
  obtain ⟨ending, more, split_, ends, stop⟩ := firstLine_ends (byteLength before) rest
  have goes : ∀ c ∈ lastLine before ++ firstLine rest, inLine c = true := by
    intro c member
    rcases List.mem_append.1 member with left | right
    · exact inLine_of_mem_lastLine left
    · exact inLine_of_mem_firstLine right
  have cut : before ++ rest =
      wholeLines before ++ (lastLine before ++ firstLine rest ++ ending) ++ more := by
    conv_lhs => rw [← wholeLines_append_lastLine before, split_]
    simp only [List.append_assoc]
  have place : byteLength before + byteLength (firstLine rest ++ ending) =
      byteLength (wholeLines before ++ (lastLine before ++ firstLine rest ++ ending)) := by
    rw [← byteLength_append]
    conv_lhs => rw [← wholeLines_append_lastLine before]
    simp only [List.append_assoc]
  have text : (ofText (before ++ rest)).text = before ++ rest := rfl
  rw [lineText, lineStart?_cut whole]
  simp only [nextLineStart?_cut whole]
  rw [text, byteLength_append, stop, place, cut, sliceBytes_middle]
  exact dropEnding goes ends

end LineMap

end PathGuard
