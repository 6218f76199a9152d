import Mathlib.Data.Set.Card
import PathGuard.Proofs.Text.Lines
/-!
# Lines and columns of offsets

Between two characters of a text, the line is the number of line breaks that end there or before, and
the column counts the characters behind the last one of them. So the positions of a text are in the
order of its offsets.
-/

namespace PathGuard

/-- Whether a line break ends at an offset: a line feed does, behind a carriage return or not, and a
carriage return that no line feed follows. -/
def BreakEnds (text : List Char) (stop : Nat) : Prop :=
  ∃ before rest, text = before ++ rest ∧ byteLength before = stop ∧
    (before.getLast? = some '\n' ∨ before.getLast? = some '\r' ∧ rest.head? ≠ some '\n')

/-- Whether a position is that of an offset, by the line breaks that end at the offset or before. -/
structure Position.Locates (text : List Char) (offset : Nat) (p : Position) : Prop where
  line : p.line = Set.ncard {stop | BreakEnds text stop ∧ stop ≤ offset}
  character : ∃ before middle rest, text = before ++ middle ++ rest ∧
    byteLength (before ++ middle) = offset ∧ middle.length = p.character ∧
    IsGreatest {stop | stop = 0 ∨ BreakEnds text stop ∧ stop ≤ offset} (byteLength before)

/-! ### Beginnings of lines are ends of line breaks -/

theorem BreakEnds.cons {text : List Char} {stop : Nat} (c : Char) (h : BreakEnds text stop) :
    BreakEnds (c :: text) (c.utf8Size + stop) := by
  obtain ⟨before, rest, split, size, last⟩ := h
  have some_ : before ≠ [] := by
    rintro rfl
    rcases last with feed | ⟨carriage, -⟩
    · cases feed
    · cases carriage
  refine ⟨c :: before, rest, congrArg (c :: ·) split, by rw [byteLength, size], ?_⟩
  rwa [List.getLast?_cons, List.getLast?_eq_some_getLast some_, Option.getD_some,
    ← List.getLast?_eq_some_getLast some_]

theorem breakEnds_of_mem {offset start : Nat} {text : List Char}
    (member : start ∈ lineStarts offset text) : BreakEnds text (start - offset) := by
  induction offset, text using lineStarts.induct with
  | case1 offset => cases member
  | case2 offset rest ih =>
    rw [lineStarts_carriage_feed, List.mem_cons] at member
    rcases member with rfl | later
    · exact ⟨['\r', '\n'], rest, rfl, by rw [Nat.add_sub_cancel_left]; rfl, .inl rfl⟩
    · have bounds := lineStarts_bounds later
      have both := ((ih later).cons '\n').cons '\r'
      have size : '\r'.utf8Size + ('\n'.utf8Size + (start - (offset + 2))) = start - offset := by
        change 1 + (1 + _) = _
        omega
      rwa [size] at both
  | case3 offset c rest single ends ih =>
    rw [lineStarts_cons_break offset ends (not_cutsBreak_single single), List.mem_cons] at member
    rcases member with rfl | later
    · refine ⟨[c], rest, rfl, ?_, ?_⟩
      · rw [byteLength_cons_break ends, Nat.add_sub_cancel_left]
        rfl
      · rcases endsLine_iff.1 ends with rfl | rfl
        · exact .inl rfl
        · exact .inr ⟨rfl, fun feed => not_cutsBreak_single single ⟨rfl, feed⟩⟩
    · have bounds := lineStarts_bounds later
      have one : c.utf8Size = 1 := by rcases endsLine_iff.1 ends with rfl | rfl <;> rfl
      have all := (ih later).cons c
      have size : c.utf8Size + (start - (offset + 1)) = start - offset := by omega
      rwa [size] at all
  | case4 offset c rest single goes ih =>
    rw [lineStarts_cons_inLine offset goes] at member
    have bounds := lineStarts_bounds member
    have all := (ih member).cons c
    have size : c.utf8Size + (start - (offset + c.utf8Size)) = start - offset := by omega
    rwa [size] at all

theorem mem_lineStarts_iff {text : List Char} {stop : Nat} :
    stop ∈ lineStarts 0 text ↔ BreakEnds text stop := by
  constructor
  · exact breakEnds_of_mem
  · rintro ⟨before, rest, rfl, rfl, last⟩
    have whole : ¬CutsBreak before rest := by
      rintro ⟨carriage, feed⟩
      rcases last with other | ⟨-, noFeed⟩
      · cases other.symm.trans carriage
      · exact noFeed feed
    obtain ⟨c, here, ends⟩ : ∃ c, before.getLast? = some c ∧ endsLine c = true := by
      rcases last with feed | ⟨carriage, -⟩
      · exact ⟨_, feed, rfl⟩
      · exact ⟨_, carriage, rfl⟩
    have start := lineStarts_getLast? 0 here ends
    rw [Nat.zero_add] at start
    rw [lineStarts_append 0 whole]
    exact List.mem_append_left _ (List.mem_of_mem_getLast? start)

theorem lineStarts_pairwise (offset : Nat) (text : List Char) :
    (lineStarts offset text).Pairwise (· < ·) := by
  induction offset, text using lineStarts.induct with
  | case1 offset => exact .nil
  | case2 offset rest ih =>
    rw [lineStarts_carriage_feed]
    exact .cons (fun start member => (lineStarts_bounds member).1) ih
  | case3 offset c rest single ends ih =>
    rw [lineStarts_cons_break offset ends (not_cutsBreak_single single)]
    exact .cons (fun start member => (lineStarts_bounds member).1) ih
  | case4 offset c rest single goes ih =>
    rw [lineStarts_cons_inLine offset goes]
    exact ih

theorem ncard_breakEnds (text : List Char) (offset : Nat) :
    Set.ncard {stop | BreakEnds text stop ∧ stop ≤ offset} =
      (lineStarts 0 text).countP (· ≤ offset) := by
  have once : ((lineStarts 0 text).filter (· ≤ offset)).Nodup :=
    ((lineStarts_pairwise 0 text).imp Nat.ne_of_lt).filter _
  have same : {stop | BreakEnds text stop ∧ stop ≤ offset} =
      ((lineStarts 0 text).filter (· ≤ offset)).toFinset := by
    ext stop
    simp [mem_lineStarts_iff]
  rw [same, Set.ncard_coe_finset, List.toFinset_card_of_nodup once, List.countP_eq_length_filter]

/-! ### The last line that begins before an offset -/

/-- Of increasing numbers, as many as there are behind the first one up to a bound lie before the
last one up to it. -/
theorem getElem?_countP {first bound : Nat} {more : List Nat}
    (increasing : (first :: more).Pairwise (· < ·)) (low : first ≤ bound) :
    ∃ last, (first :: more)[more.countP (· ≤ bound)]? = some last ∧
      IsGreatest {n | n ∈ first :: more ∧ n ≤ bound} last := by
  induction more generalizing first with
  | nil =>
    refine ⟨first, rfl, ⟨List.mem_singleton_self first, low⟩, ?_⟩
    rintro n ⟨member, -⟩
    exact Nat.le_of_eq (List.mem_singleton.1 member)
  | cons next more ih =>
    obtain ⟨before, behind⟩ := List.pairwise_cons.1 increasing
    by_cases lower : next ≤ bound
    · obtain ⟨last, found, ⟨member, atMost⟩, greatest⟩ := ih behind lower
      refine ⟨last, ?_, ⟨List.mem_cons_of_mem _ member, atMost⟩, ?_⟩
      · rw [List.countP_cons_of_pos (by simpa using lower), List.getElem?_cons_succ]
        exact found
      · rintro n ⟨inside, few⟩
        rcases List.mem_cons.1 inside with rfl | later
        · exact Nat.le_of_lt (before last member)
        · exact greatest ⟨later, few⟩
    -- the numbers increase, so none of the later ones is within the bound
    · have none_ : (next :: more).countP (· ≤ bound) = 0 := by
        rw [List.countP_eq_zero]
        intro n member small
        have small : n ≤ bound := of_decide_eq_true small
        rcases List.mem_cons.1 member with rfl | later
        · exact lower small
        · have above := (List.pairwise_cons.1 behind).1 n later
          omega
      refine ⟨first, by rw [none_]; rfl, ⟨List.mem_cons_self, low⟩, ?_⟩
      rintro n ⟨inside, few⟩
      rcases List.mem_cons.1 inside with rfl | later
      · exact Nat.le_refl _
      · have above : next ≤ n := by
          rcases List.mem_cons.1 later with rfl | last
          · exact Nat.le_refl _
          · exact Nat.le_of_lt ((List.pairwise_cons.1 behind).1 n last)
        omega

theorem prefix_of_byteLength_le {text a b : List Char} (first : a <+: text) (second : b <+: text)
    (few : byteLength a ≤ byteLength b) : a <+: b := by
  rcases List.prefix_or_prefix_of_prefix first second with here | ⟨more, rfl⟩
  · exact here
  · rw [byteLength_append] at few
    cases more with
    | nil => rw [List.append_nil]
    | cons c more =>
      have positive := c.utf8Size_pos
      rw [byteLength] at few
      omega

theorem eq_of_byteLength_eq {text a b : List Char} (first : a <+: text) (second : b <+: text)
    (same : byteLength a = byteLength b) : a = b := by
  have here := prefix_of_byteLength_le first second (Nat.le_of_eq same)
  have there := prefix_of_byteLength_le second first (Nat.le_of_eq same.symm)
  exact here.eq_of_length_le there.length_le

namespace LineMap

variable {text : List Char} {offset : Nat}

theorem lineAt_ofText (text : List Char) (offset : Nat) :
    (ofText text).lineAt offset = (lineStarts 0 text).countP (· ≤ offset) := by
  rw [lineAt, starts_ofText, List.countP_toArray, List.countP_cons_of_pos (by simp)]
  exact Nat.add_sub_cancel ..

theorem lineStart?_lineAt (text : List Char) (offset : Nat) :
    ∃ start, (ofText text).lineStart? ((ofText text).lineAt offset) = some start ∧
      IsGreatest {stop | stop = 0 ∨ BreakEnds text stop ∧ stop ≤ offset} start := by
  have increasing : (0 :: lineStarts 0 text).Pairwise (· < ·) :=
    .cons (fun start member => (lineStarts_bounds member).1) (lineStarts_pairwise 0 text)
  obtain ⟨start, found, greatest⟩ := getElem?_countP increasing (Nat.zero_le offset)
  have same : {stop | stop = 0 ∨ BreakEnds text stop ∧ stop ≤ offset} =
      {stop | stop ∈ 0 :: lineStarts 0 text ∧ stop ≤ offset} := by
    ext stop
    simp only [Set.mem_ofPred_eq, List.mem_cons, mem_lineStarts_iff]
    constructor
    · rintro (rfl | ⟨ends, before⟩)
      · exact ⟨.inl rfl, Nat.zero_le _⟩
      · exact ⟨.inr ends, before⟩
    · rintro ⟨rfl | ends, before⟩
      · exact .inl rfl
      · exact .inr ⟨ends, before⟩
  refine ⟨start, ?_, same ▸ greatest⟩
  rw [lineStart?, starts_ofText, List.getElem?_toArray, lineAt_ofText]
  exact found

theorem line_lt_lineCount (text : List Char) (offset : Nat) :
    (ofText text).lineAt offset < (ofText text).lineCount := by
  rw [lineAt_ofText, lineCount_ofText]
  exact Nat.lt_succ_of_le List.countP_le_length

theorem locates_position (boundary : IsBoundary text offset) :
    ((ofText text).position offset).Locates text offset := by
  obtain ⟨start, found, greatest⟩ := lineStart?_lineAt text offset
  have atMost : start ≤ offset := by
    rcases greatest.1 with rfl | ⟨-, before⟩
    · exact Nat.zero_le _
    · exact before
  -- where the line begins, the text can be cut, and what lies before is a part of what lies before
  -- the offset
  obtain ⟨before, first, rfl⟩ : IsBoundary text start := by
    rcases greatest.1 with rfl | ⟨⟨before, rest, split, size, -⟩, -⟩
    · exact ⟨[], List.nil_prefix, rfl⟩
    · exact ⟨before, ⟨rest, split.symm⟩, size⟩
  obtain ⟨whole, ⟨rest, rfl⟩, rfl⟩ := boundary
  obtain ⟨middle, rfl⟩ := prefix_of_byteLength_le first (List.prefix_append ..) atMost
  refine ⟨?_, before, middle, rest, rfl, rfl, ?_, greatest⟩
  · rw [ncard_breakEnds]
    exact lineAt_ofText ..
  · have fits : byteLength (before ++ middle) ≤ byteLength (before ++ middle ++ rest) := by
      rw [byteLength_append (before ++ middle)]
      exact Nat.le_add_right _ _
    have text : (ofText (before ++ middle ++ rest)).text = before ++ middle ++ rest := rfl
    rw [position, found, text, Nat.min_eq_left fits, Option.getD_some, Nat.min_eq_left atMost,
      sliceBytes_middle]
    rfl

end LineMap

/-! ### Positions in order -/

theorem Position.Locates.lt {text : List Char} {a b : Nat} {p q : Position}
    (h : p.Locates text a) (h' : q.Locates text b) (before : a < b) :
    p.line < q.line ∨ p.line = q.line ∧ p.character < q.character := by
  have finite : {stop | BreakEnds text stop ∧ stop ≤ b}.Finite :=
    (Set.finite_le_nat b).subset fun stop member => member.2
  have fewer : {stop | BreakEnds text stop ∧ stop ≤ a} ⊆ {stop | BreakEnds text stop ∧ stop ≤ b} :=
    fun stop member => ⟨member.1, Nat.le_trans member.2 (Nat.le_of_lt before)⟩
  have lines : p.line ≤ q.line := by
    rw [h.line, h'.line]
    exact Set.ncard_le_ncard fewer finite
  refine (Nat.lt_or_eq_of_le lines).imp_right fun same => ⟨same, ?_⟩
  -- on one line, the two columns are counted from the same break
  have breaks : {stop | BreakEnds text stop ∧ stop ≤ a} = {stop | BreakEnds text stop ∧ stop ≤ b} := by
    apply Set.eq_of_subset_of_ncard_le fewer _ finite
    rw [← h.line, ← h'.line, same]
  obtain ⟨line, middle, rest, split, far, count, greatest⟩ := h.character
  obtain ⟨line', middle', rest', split', far', count', greatest'⟩ := h'.character
  have starts : byteLength line = byteLength line' := by
    have both : {stop | stop = 0 ∨ BreakEnds text stop ∧ stop ≤ a} =
        {stop | stop = 0 ∨ BreakEnds text stop ∧ stop ≤ b} := by
      ext stop
      exact or_congr_right (Set.ext_iff.1 breaks stop)
    exact (both ▸ greatest).unique greatest'
  have first : line ++ middle <+: text := ⟨rest, split.symm⟩
  have second : line' ++ middle' <+: text := ⟨rest', split'.symm⟩
  obtain rfl : line = line' := eq_of_byteLength_eq ((List.prefix_append ..).trans first)
    ((List.prefix_append ..).trans second) starts
  obtain ⟨more, longer⟩ := prefix_of_byteLength_le first second (by omega)
  obtain rfl : middle ++ more = middle' := List.append_cancel_left ((List.append_assoc ..) ▸ longer)
  have some_ : more ≠ [] := by
    rintro rfl
    rw [List.append_nil] at far'
    omega
  rw [← count, ← count', List.length_append]
  exact Nat.lt_add_of_pos_right (List.length_pos_of_ne_nil some_)

/-- For every text and every offset between two of its characters, the line counts the line breaks
that end up to there and the column the characters behind the last of them. The line is one of the
text and begins no later than the offset, and the positions are in the order of the offsets. -/
theorem LineMap.position_inOrder (text : List Char) :
    let m := LineMap.ofText text
    (∀ offset, IsBoundary text offset → (m.position offset).Locates text offset ∧
      (m.position offset).line < m.lineCount ∧
      ∃ start, m.lineStart? (m.position offset).line = some start ∧ start ≤ offset) ∧
    ∀ a b, IsBoundary text a → IsBoundary text b → a < b →
      (m.position a).line < (m.position b).line ∨
        (m.position a).line = (m.position b).line ∧
          (m.position a).character < (m.position b).character := by
  intro m
  refine ⟨fun offset boundary => ?_, fun a b first second before => ?_⟩
  · refine ⟨locates_position boundary, line_lt_lineCount text offset, ?_⟩
    obtain ⟨start, found, greatest⟩ := lineStart?_lineAt text offset
    refine ⟨start, found, ?_⟩
    rcases greatest.1 with rfl | ⟨-, atMost⟩
    · exact Nat.zero_le _
    · exact atMost
  · exact (locates_position first).lt (locates_position second) before

/-- A carriage return is in its line, before the line feed that ends the line together with it. -/
theorem LineMap.position_inOrder_pair :
    let text := ['é', '\r', '\n', 'a']
    let m := LineMap.ofText text
    IsBoundary text 3 ∧ IsBoundary text 4 ∧ m.position 3 = ⟨0, 2⟩ ∧ m.position 4 = ⟨1, 0⟩ ∧
      (m.position 3).Locates text 3 ∧ (m.position 4).Locates text 4 ∧
      ((m.position 3).line < (m.position 4).line ∨
        (m.position 3).line = (m.position 4).line ∧
          (m.position 3).character < (m.position 4).character) := by
  intro text m
  have before : IsBoundary text 3 := ⟨['é', '\r'], ⟨['\n', 'a'], rfl⟩, by decide⟩
  have behind : IsBoundary text 4 := ⟨['é', '\r', '\n'], ⟨['a'], rfl⟩, by decide⟩
  obtain ⟨places, order⟩ := LineMap.position_inOrder text
  exact ⟨before, behind, by decide, by decide, (places 3 before).1, (places 4 behind).1,
    order 3 4 before behind (by decide)⟩

end PathGuard
