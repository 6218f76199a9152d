import PathGuard.Proofs.Text.Position
/-!
# The lines of a text

A text is its lines one after the other, each with the line break that ends it. Cut up in this way
from any place on where a line begins, it has as many lines as a line map counts, they begin where the
line map says, and what it says of their texts is right.
-/

namespace PathGuard

def lineBreaks : List (List Char) := [['\n'], ['\r', '\n'], ['\r']]

structure Line where
  text : List Char
  ending : List Char

def Line.whole (l : Line) : List Char := l.text ++ l.ending

/-- Whether a text consists of some lines. No line break is cut in two. -/
inductive ConsistsOf : List Char → List Line → Prop where
  | last {text : List Char} (goes : ∀ c ∈ text, inLine c = true) : ConsistsOf text [⟨text, []⟩]
  | line {text ending rest : List Char} {ls : List Line} (goes : ∀ c ∈ text, inLine c = true)
      (ends : ending ∈ lineBreaks) (whole : ¬CutsBreak ending rest) (more : ConsistsOf rest ls) :
      ConsistsOf (text ++ ending ++ rest) (⟨text, ending⟩ :: ls)

/-! ### Line breaks -/

theorem exists_of_mem_lineBreaks {ending : List Char} (ends : ending ∈ lineBreaks) :
    ∃ more c, ending = more ++ [c] ∧ endsLine c = true := by
  simp only [lineBreaks, List.mem_cons, List.not_mem_nil, or_false] at ends
  rcases ends with rfl | rfl | rfl
  · exact ⟨[], '\n', rfl, rfl⟩
  · exact ⟨['\r'], '\n', rfl, rfl⟩
  · exact ⟨[], '\r', rfl, rfl⟩

theorem takeWhile_lineBreak {ending : List Char} (ends : ending ∈ lineBreaks) (rest : List Char) :
    (ending ++ rest).takeWhile inLine = [] := by
  simp only [lineBreaks, List.mem_cons, List.not_mem_nil, or_false] at ends
  rcases ends with rfl | rfl | rfl <;> rfl

theorem lineStarts_lineBreak (offset : Nat) {ending rest : List Char} (ends : ending ∈ lineBreaks)
    (whole : ¬CutsBreak ending rest) :
    lineStarts offset (ending ++ rest) =
      (offset + byteLength ending) :: lineStarts (offset + byteLength ending) rest := by
  simp only [lineBreaks, List.mem_cons, List.not_mem_nil, or_false] at ends
  rcases ends with rfl | rfl | rfl
  · exact lineStarts_cons_break offset rfl fun ⟨carriage, _⟩ => by cases carriage
  · exact lineStarts_carriage_feed offset rest
  · exact lineStarts_cons_break offset rfl whole

/-! ### Texts and their lines -/

theorem exists_consistsOf (text : List Char) : ∃ ls, ConsistsOf text ls := by
  generalize size : text.length = n
  induction n using Nat.strongRecOn generalizing text with
  | ind n ih =>
    have cut : text.takeWhile inLine ++ text.dropWhile inLine = text := List.takeWhile_append_dropWhile
    have goes : ∀ c ∈ text.takeWhile inLine, inLine c = true := fun c => inLine_of_mem_firstLine
    cases tail : text.dropWhile inLine with
    | nil =>
      rw [tail, List.append_nil] at cut
      exact ⟨_, .last (cut ▸ goes)⟩
    | cons c more =>
      have ends : endsLine c = true := by
        have first := List.head?_dropWhile_not inLine text
        rw [tail] at first
        exact not_inLine.1 (Bool.eq_false_iff.1 first)
      rw [tail] at cut
      have lengths := congrArg List.length cut
      rw [List.length_append, List.length_cons, size] at lengths
      by_cases pair : CutsBreak [c] more
      · obtain ⟨rest, rfl⟩ := List.head?_eq_some_iff.1 pair.2
        obtain rfl : c = '\r' := Option.some.inj pair.1
        rw [List.length_cons] at lengths
        obtain ⟨ls, lines⟩ := ih rest.length (by omega) rest rfl
        have whole : ¬CutsBreak ['\r', '\n'] rest := fun ⟨carriage, _⟩ => by cases carriage
        have all := ConsistsOf.line goes (by decide : ['\r', '\n'] ∈ lineBreaks) whole lines
        rw [List.append_assoc] at all
        exact ⟨_, cut ▸ all⟩
      · obtain ⟨ls, lines⟩ := ih more.length (by omega) more rfl
        have single : [c] ∈ lineBreaks := by
          rcases endsLine_iff.1 ends with rfl | rfl <;> decide
        have all := ConsistsOf.line goes single pair lines
        rw [List.append_assoc] at all
        exact ⟨_, cut ▸ all⟩

namespace ConsistsOf

variable {text : List Char} {ls : List Line}

theorem flatMap_whole (h : ConsistsOf text ls) : ls.flatMap Line.whole = text := by
  induction h with
  | last goes => simp [Line.whole]
  | line goes ends whole more ih =>
    rw [List.flatMap_cons, ih]
    rfl

theorem inLine_of_mem (h : ConsistsOf text ls) {l : Line} (member : l ∈ ls) :
    ∀ c ∈ l.text, inLine c = true := by
  induction h with
  | last goes =>
    obtain rfl := List.mem_singleton.1 member
    exact goes
  | line goes ends whole more ih =>
    rcases List.mem_cons.1 member with rfl | later
    · exact goes
    · exact ih later

theorem ending_of_lt (h : ConsistsOf text ls) {i : Nat} {l : Line} (here : ls[i]? = some l) :
    if i + 1 < ls.length then l.ending ∈ lineBreaks else l.ending = [] := by
  induction h generalizing i with
  | last goes =>
    obtain ⟨first, rfl⟩ := List.getElem?_eq_some_iff.1 here
    obtain rfl := Nat.lt_one_iff.1 first
    rfl
  | @line text ending rest ls goes ends whole more ih =>
    cases i with
    | zero =>
      obtain rfl := Option.some.inj here
      have positive : 0 < ls.length := by
        cases more with
        | last => exact Nat.one_pos
        | line => exact Nat.succ_pos _
      rw [if_pos (by rw [List.length_cons]; omega)]
      exact ends
    | succ i =>
      have later := ih here
      simpa [List.length_cons] using later

theorem length_lineStarts (h : ConsistsOf text ls) (offset : Nat) :
    (lineStarts offset text).length + 1 = ls.length := by
  induction h generalizing offset with
  | last goes => rw [lineStarts_of_inLine offset goes]; rfl
  | line goes ends whole more ih =>
    rw [List.append_assoc, lineStarts_inLine_append offset goes, lineStarts_lineBreak _ ends whole,
      List.length_cons, List.length_cons, ih]

theorem firstLine_eq (h : ConsistsOf text ls) : (ls[0]?.map Line.text) = some (firstLine text) := by
  cases h with
  | last goes => exact congrArg some (List.takeWhile_eq_self_iff.2 goes).symm
  | line goes ends whole more =>
    rw [firstLine, List.append_assoc, List.takeWhile_append_of_pos goes, takeWhile_lineBreak ends,
      List.append_nil]
    rfl

end ConsistsOf

/-! ### What a line map says of the lines -/

/-- Whether a line may begin behind a text: its last line has ended, or it is empty. -/
def LinesEnded (before : List Char) : Prop := lastLine before = []

theorem LinesEnded.wholeLines_eq {before : List Char} (h : LinesEnded before) :
    wholeLines before = before := by
  have all := wholeLines_append_lastLine before
  rwa [h, List.append_nil] at all

theorem linesEnded_append {before line ending : List Char} (ends : ending ∈ lineBreaks) :
    LinesEnded (before ++ (line ++ ending)) := by
  obtain ⟨more, c, rfl, last⟩ := exists_of_mem_lineBreaks ends
  rw [LinesEnded, lastLine, ← List.append_assoc, ← List.append_assoc]
  exact List.rtakeWhile_concat_neg _ _ _ (not_inLine.2 last)

theorem not_cutsBreak_append {before line ending rest : List Char} (ends : ending ∈ lineBreaks)
    (whole : ¬CutsBreak ending rest) : ¬CutsBreak (before ++ (line ++ ending)) rest := by
  obtain ⟨more, c, rfl, -⟩ := exists_of_mem_lineBreaks ends
  rintro ⟨last, feed⟩
  refine whole ⟨?_, feed⟩
  rw [← List.append_assoc, ← List.append_assoc, List.getLast?_concat] at last
  rw [List.getLast?_concat, last]

theorem length_lineStarts_line {before line ending : List Char} (goes : ∀ c ∈ line, inLine c = true)
    (ends : ending ∈ lineBreaks) (whole : ¬CutsBreak before (line ++ ending)) :
    (lineStarts 0 (before ++ (line ++ ending))).length = (lineStarts 0 before).length + 1 := by
  have alone : ¬CutsBreak ending [] := fun ⟨_, feed⟩ => by cases feed
  have one := lineStarts_lineBreak (byteLength (before ++ line)) ends alone
  rw [List.append_nil] at one
  rw [lineStarts_append 0 whole, lineStarts_inLine_append _ goes, Nat.zero_add, ← byteLength_append,
    one, List.length_append]
  rfl

namespace LineMap

variable {before rest : List Char} {ls : List Line} {l : Line} {i : Nat}

theorem firstLine_of_consistsOf (lines : ConsistsOf rest ls) (ended : LinesEnded before)
    (whole : ¬CutsBreak before rest) (here : ls[0]? = some l) :
    (ofText (before ++ rest)).lineStart? (lineStarts 0 before).length = some (byteLength before) ∧
      (ofText (before ++ rest)).lineText (lineStarts 0 before).length = l.text := by
  have begins := lines.firstLine_eq
  rw [here, Option.map_some, Option.some.injEq] at begins
  have nothing : lastLine before = [] := ended
  rw [lineStart?_cut whole, lineText_cut whole, ended.wholeLines_eq, nothing, List.nil_append, begins]
  exact ⟨rfl, rfl⟩

theorem line_of_consistsOf (lines : ConsistsOf rest ls) (ended : LinesEnded before)
    (whole : ¬CutsBreak before rest) (here : ls[i]? = some l) :
    (ofText (before ++ rest)).lineStart? ((lineStarts 0 before).length + i) =
        some (byteLength (before ++ (ls.take i).flatMap Line.whole)) ∧
      (ofText (before ++ rest)).lineText ((lineStarts 0 before).length + i) = l.text := by
  induction lines generalizing before i with
  | last goes =>
    obtain rfl := Nat.lt_one_iff.1 (List.getElem?_eq_some_iff.1 here).1
    rw [List.take_zero, List.flatMap_nil, List.append_nil]
    exact firstLine_of_consistsOf (.last goes) ended whole here
  | @line text ending rest ls goes ends cut more ih =>
    cases i with
    | zero =>
      rw [List.take_zero, List.flatMap_nil, List.append_nil]
      exact firstLine_of_consistsOf (.line goes ends cut more) ended whole here
    | succ i =>
      have kept : ¬CutsBreak before (text ++ ending) := by
        rintro ⟨carriage, feed⟩
        refine whole ⟨carriage, ?_⟩
        rw [List.head?_append, feed]
        rfl
      have number : (lineStarts 0 before).length + (i + 1) =
          (lineStarts 0 (before ++ (text ++ ending))).length + i := by
        have one := length_lineStarts_line goes ends kept
        omega
      have start : before ++ ((⟨text, ending⟩ :: ls).take (i + 1)).flatMap Line.whole =
          before ++ (text ++ ending) ++ (ls.take i).flatMap Line.whole :=
        (List.append_assoc ..).symm
      rw [number, start, ← List.append_assoc before]
      exact ih (linesEnded_append ends) (not_cutsBreak_append ends cut) here

/-- Whether the lines that a line map tells of, each with its ending, make up a text. -/
structure Partitions (m : LineMap) (text : List Char) (ending : Nat → List Char) : Prop where
  first : m.lineStart? 0 = some 0
  increasing : ∀ i j a b, i < j → m.lineStart? i = some a → m.lineStart? j = some b → a < b
  within : ∀ i a, m.lineStart? i = some a → a ≤ byteLength text
  counted : ∀ i, (m.lineStart? i).isSome = true ↔ i < m.lineCount
  whole : (List.range m.lineCount).flatMap (fun i => m.lineText i ++ ending i) = text
  begins : ∀ i, i < m.lineCount → m.lineStart? i =
    some (byteLength ((List.range i).flatMap fun j => m.lineText j ++ ending j))
  broken : ∀ i, i + 1 < m.lineCount → ending i ∈ lineBreaks
  last : ending (m.lineCount - 1) = []
  unbroken : ∀ i, ∀ c ∈ m.lineText i, c ≠ '\n' ∧ c ≠ '\r'
  outside : ∀ i, m.lineCount ≤ i → m.lineText i = []

theorem flatMap_range_eq {f : Nat → List Char} (same : ∀ i l, ls[i]? = some l → f i = l.whole)
    {n : Nat} (few : n ≤ ls.length) : (List.range n).flatMap f = (ls.take n).flatMap Line.whole := by
  induction n with
  | zero => rfl
  | succ n ih =>
    have here : ls[n]? = some ls[n] := List.getElem?_eq_getElem few
    rw [List.range_succ, List.flatMap_append, ih (Nat.le_of_succ_le few), List.take_add_one, here,
      List.flatMap_append]
    simp [same n _ here]

theorem lineStart?_pairwise {text : List Char} {j a b : Nat} (before : i < j)
    (first : (ofText text).lineStart? i = some a) (second : (ofText text).lineStart? j = some b) :
    a < b := by
  have increasing : (0 :: lineStarts 0 text).Pairwise (· < ·) :=
    .cons (fun start member => (lineStarts_bounds member).1) (lineStarts_pairwise 0 text)
  rw [lineStart?, starts_ofText, List.getElem?_toArray] at first second
  obtain ⟨hi, rfl⟩ := List.getElem?_eq_some_iff.1 first
  obtain ⟨hj, rfl⟩ := List.getElem?_eq_some_iff.1 second
  exact List.pairwise_iff_getElem.1 increasing i j hi hj before

theorem lineStart?_le {text : List Char} {start : Nat}
    (begins : (ofText text).lineStart? i = some start) : start ≤ byteLength text := by
  rw [lineStart?, starts_ofText, List.getElem?_toArray] at begins
  rcases List.mem_cons.1 (List.mem_of_getElem? begins) with rfl | later
  · exact Nat.zero_le _
  · exact Nat.zero_add (byteLength text) ▸ (lineStarts_bounds later).2

theorem lineCount_of_consistsOf {text : List Char} (lines : ConsistsOf text ls) :
    (ofText text).lineCount = ls.length := by
  rw [lineCount_ofText, lines.length_lineStarts]

theorem read_of_consistsOf {text : List Char} (lines : ConsistsOf text ls) (here : ls[i]? = some l) :
    (ofText text).lineStart? i = some (byteLength ((ls.take i).flatMap Line.whole)) ∧
      (ofText text).lineText i = l.text := by
  have ended : LinesEnded [] := rfl
  have found := line_of_consistsOf lines ended (fun ⟨carriage, _⟩ => by cases carriage) here
  rwa [show (lineStarts 0 []).length = 0 from rfl, Nat.zero_add] at found

/-- The lines of every text, each with its line break, make it up. -/
theorem exists_partitions (text : List Char) : ∃ ending, (ofText text).Partitions text ending := by
  obtain ⟨ls, lines⟩ := exists_consistsOf text
  have count := lineCount_of_consistsOf lines
  let ending (i : Nat) : List Char := (ls[i]?.map Line.ending).getD []
  have ending_eq {i : Nat} {l : Line} (here : ls[i]? = some l) : ending i = l.ending := by
    change (ls[i]?.map Line.ending).getD [] = l.ending
    rw [here]
    rfl
  have joined {n : Nat} (few : n ≤ ls.length) :
      ((List.range n).flatMap fun i => (ofText text).lineText i ++ ending i) =
        (ls.take n).flatMap Line.whole := by
    refine flatMap_range_eq (fun i l here => ?_) few
    rw [(read_of_consistsOf lines here).2, ending_eq here]
    rfl
  have inside (i : Nat) (before : i < (ofText text).lineCount) : ∃ l, ls[i]? = some l :=
    ⟨_, List.getElem?_eq_getElem (count ▸ before)⟩
  have outside (i : Nat) (behind : (ofText text).lineCount ≤ i) : (ofText text).lineText i = [] := by
    rw [lineText, show (ofText text).lineStart? i = none from Array.getElem?_eq_none behind]
  refine ⟨ending, {
    first := by rw [lineStart?, starts_ofText]; rfl
    increasing := fun i j a b => lineStart?_pairwise
    within := fun i a => lineStart?_le
    counted := fun i => by simp [lineStart?, lineCount]
    whole := ?_
    begins := fun i before => ?_
    broken := fun i before => ?_
    last := ?_
    unbroken := fun i c member => ?_
    outside := outside }⟩
  · rw [count, joined (Nat.le_refl _), List.take_length, lines.flatMap_whole]
  · obtain ⟨l, here⟩ := inside i before
    rw [joined (Nat.le_of_lt (count ▸ before)), (read_of_consistsOf lines here).1]
  · obtain ⟨l, here⟩ := inside i (Nat.lt_of_succ_lt before)
    have ends := lines.ending_of_lt here
    rwa [if_pos (count ▸ before), ← ending_eq here] at ends
  · have positive : 0 < ls.length := lines.length_lineStarts 0 ▸ Nat.succ_pos _
    have here : ls[ls.length - 1]? = some _ := List.getElem?_eq_getElem (Nat.sub_one_lt_of_lt positive)
    have ends := lines.ending_of_lt here
    rwa [if_neg (by omega), ← ending_eq here, ← count] at ends
  · by_cases before : i < (ofText text).lineCount
    · obtain ⟨l, here⟩ := inside i before
      rw [(read_of_consistsOf lines here).2] at member
      have goes := lines.inLine_of_mem (List.mem_of_getElem? here) c member
      constructor <;> rintro rfl <;> cases goes
    · rw [outside i (Nat.le_of_not_lt before)] at member
      cases member

-- A carriage return behind another one ends a line of its own, and so does a line feed before one.
example : (ofText ['\r', '\r', '\n', 'b', '\n', '\r']).starts = #[0, 1, 3, 5, 6] := by decide

end LineMap

end PathGuard
