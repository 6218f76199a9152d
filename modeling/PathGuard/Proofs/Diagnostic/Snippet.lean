import PathGuard.Diagnostic.Report
import PathGuard.Proofs.Text.Lines
/-!
# Marks below a span

A report shows the line in which the span of a diagnostic begins, behind a margin with the number of
the line, and below it a row with marks, behind a margin of eight blanks. A span that stays in its
line is marked character for character. The marks stand below the span as long as the number of the
line has at most three digits, since then the two margins are equally wide.
-/

namespace PathGuard

/-- Whether the marks of a row stand in the columns from `first` up to `stop` and nowhere else. -/
def IsMarked (row : List Char) (first stop : Nat) : Prop :=
  ∀ column, row[column]? = some '~' ↔ first ≤ column ∧ column < stop

theorem isMarked_replicate {before after : List Char} (count : Nat) (clear : '~' ∉ before)
    (clear' : '~' ∉ after) :
    IsMarked (before ++ List.replicate count '~' ++ after) before.length
      (before.length + count) := by
  intro column
  rw [List.append_assoc]
  by_cases early : column < before.length
  · rw [List.getElem?_append_left early]
    constructor
    · exact fun found => absurd (List.mem_of_getElem? found) clear
    · omega
  · rw [List.getElem?_append_right (by omega)]
    by_cases late : column - before.length < count
    · rw [List.getElem?_append_left (by rwa [List.length_replicate]),
        List.getElem?_replicate_of_lt late]
      constructor
      · intro found
        omega
      · exact fun inside => rfl
    · rw [List.getElem?_append_right (by rw [List.length_replicate]; omega)]
      constructor
      · exact fun found => absurd (List.mem_of_getElem? found) clear'
      · omega

theorem IsMarked.first_eq {row : List Char} {first stop first' stop' : Nat}
    (h : IsMarked row first stop) (h' : IsMarked row first' stop') (some_ : first < stop) :
    first' = first := by
  have inside := (h' first).1 ((h first).2 ⟨Nat.le_refl _, some_⟩)
  have inside' := (h first').1 ((h' first').2 ⟨Nat.le_refl _, by omega⟩)
  omega

/-! ### Lines that a span stays in -/

section

variable {before span : List Char} (goes : ∀ c ∈ span, inLine c = true)
include goes

theorem lineStarts_append_span : lineStarts 0 (before ++ span) = lineStarts 0 before := by
  have whole : ¬CutsBreak before span :=
    not_cutsBreak_of_inLine fun c first => goes c (List.mem_of_mem_head? first)
  rw [lineStarts_append 0 whole, lineStarts_of_inLine _ goes, List.append_nil]

theorem lastLine_append_span : lastLine (before ++ span) = lastLine before ++ span := by
  rw [lastLine, List.rtakeWhile, List.reverse_append,
    List.takeWhile_append_of_pos (fun c member => goes c (List.mem_reverse.1 member)),
    List.reverse_append, List.reverse_reverse]
  rfl

theorem firstLine_span_append (after : List Char) :
    firstLine (span ++ after) = span ++ firstLine after :=
  List.takeWhile_append_of_pos goes

end

namespace Reporter

open LineMap

/-! ### The rows of a report -/

theorem length_lineNumber (n : Nat) : (lineNumber n).toList.length = max 3 n.repr.length := by
  rw [lineNumber, String.toList_append, String.toList_ofList, List.length_append,
    List.length_replicate, String.length_toList]
  omega

def numberMargin (line : Nat) : List Char :=
  [' ', ' '] ++ (lineNumber line).toList ++ [' ', ' ', ' ']

def marksMargin : List Char := List.replicate 8 ' '

/-- The margins are equally wide below the thousandth line. -/
theorem length_numberMargin_eq_iff (line : Nat) :
    (numberMargin line).length = marksMargin.length ↔ line ≤ 999 := by
  have short : line.repr.length ≤ 3 ↔ line < 1000 := Nat.length_repr_le_iff (by decide)
  have wide : (numberMargin line).length = 2 + max 3 line.repr.length + 3 := by
    rw [numberMargin, List.length_append, List.length_append, length_lineNumber]
    rfl
  have eight : marksMargin.length = 8 := rfl
  omega

def labelPart : Option String → List Char
  | none => []
  | some label => ' ' :: label.toList

def marksRow (left span : List Char) (label : Option String) : List Char :=
  marksMargin ++ indentUnder left ++ List.replicate span.length '~' ++ labelPart label

theorem length_indentUnder (left : List Char) : (indentUnder left).length = left.length :=
  List.length_map _

theorem mem_indentUnder {c : Char} {left : List Char} (member : c ∈ indentUnder left) :
    c = '\t' ∨ c = ' ' := by
  obtain ⟨d, -, rfl⟩ := List.mem_map.1 member
  split
  · exact .inl rfl
  · exact .inr rfl

theorem labelPart_clear {c : Char} (mark : c = '~' ∨ c = '\n') (kind : Option ViolationKind) :
    c ∉ labelPart (kind.map ViolationKind.label) := by
  rcases mark with rfl | rfl
  · rcases kind with _ | _ | _ | _ <;> decide
  · rcases kind with _ | _ | _ | _ <;> decide

theorem isMarked_marksRow (left span : List Char) (kind : Option ViolationKind) :
    IsMarked (marksRow left span (kind.map ViolationKind.label)) (marksMargin.length + left.length)
      (marksMargin.length + left.length + span.length) := by
  have clear : '~' ∉ marksMargin ++ indentUnder left := by
    intro member
    rcases List.mem_append.1 member with blank | indented
    · cases List.eq_of_mem_replicate blank
    · rcases mem_indentUnder indented with tab | blank
      · cases tab
      · cases blank
  have marked := isMarked_replicate span.length clear (labelPart_clear (.inl rfl) kind)
  rwa [List.length_append, length_indentUnder] at marked

theorem oneLine_marksRow {left span : List Char} (kind : Option ViolationKind) :
    '\n' ∉ marksRow left span (kind.map ViolationKind.label) := by
  intro member
  rw [marksRow, List.mem_append, List.mem_append, List.mem_append] at member
  rcases member with ((blank | indented) | mark) | labelled
  · cases List.eq_of_mem_replicate blank
  · rcases mem_indentUnder indented with tab | blank
    · cases tab
    · cases blank
  · cases List.eq_of_mem_replicate mark
  · exact labelPart_clear (.inr rfl) kind labelled

def lineRow (before span after : List Char) : List Char :=
  numberMargin (LineMap.ofText before).lineCount ++ lastLine before ++ span ++ firstLine after

theorem oneLine_numberMargin (line : Nat) : '\n' ∉ numberMargin line := by
  intro member
  rw [numberMargin, lineNumber, String.toList_append, String.toList_ofList, Nat.toList_repr,
    List.mem_append, List.mem_append, List.mem_append] at member
  rcases member with (blank | padding | digit) | blank
  · revert blank
    decide
  · cases List.eq_of_mem_replicate padding
  · have isDigit := Nat.isDigit_of_mem_toDigits (by decide) (by decide) digit
    exact absurd isDigit (by decide)
  · revert blank
    decide

theorem oneLine_lineRow (before after : List Char) {span : List Char}
    (goes : ∀ c ∈ span, inLine c = true) : '\n' ∉ lineRow before span after := by
  intro member
  rw [lineRow, List.mem_append, List.mem_append, List.mem_append] at member
  rcases member with ((margin | left) | inside) | right
  · exact oneLine_numberMargin _ margin
  · cases inLine_of_mem_lastLine left
  · cases goes _ inside
  · cases inLine_of_mem_firstLine right

theorem markedColumns_span (line first width rest : Nat) (some_ : width ≠ 0) :
    markedColumns ⟨line, first⟩ ⟨line, first + width⟩ (first + (width + rest)) =
      (first, width) := by
  have first_ : min first (first + (width + rest)) = first := by omega
  have last : min (first + width) (first + (width + rest)) = first + width := by omega
  have count : max (first + width - first) 1 = width := by omega
  simp only [markedColumns, if_true, first_, last, count]

theorem snippet_cut {r : Reporter} {d : Diagnostic} {before span after : List Char}
    (plain : r.color = false)
    (known : r.sources[d.file]? = some (.ofText (before ++ (span ++ after))))
    (begins : d.start = byteLength before) (wide : d.length = byteLength span)
    (reached : d.start + d.length < offsetCount) (some_ : span ≠ [])
    (goes : ∀ c ∈ span, inLine c = true) (label : Option String) :
    (r.snippet d label).toList =
      '\n' :: lineRow before span after ++ '\n' :: marksRow (lastLine before) span label := by
  have positive : d.length ≠ 0 ∧ span.length ≠ 0 := by
    obtain ⟨c, span', rfl⟩ := List.exists_cons_of_ne_nil some_
    have size := c.utf8Size_pos
    rw [wide, byteLength, List.length_cons]
    omega
  have inRange : min (byteLength before + d.length) lastOffset = byteLength (before ++ span) := by
    have last : lastOffset = offsetCount - 1 := rfl
    rw [byteLength_append, ← begins, ← wide]
    omega
  have whole : ¬CutsBreak before (span ++ after) := by
    apply not_cutsBreak_of_inLine
    intro c first
    rw [List.head?_append_of_ne_nil _ some_] at first
    exact goes c (List.mem_of_mem_head? first)
  have whole' : ¬CutsBreak (before ++ span) after := by
    rintro ⟨carriage, -⟩
    rw [List.getLast?_append_of_ne_nil _ some_] at carriage
    cases goes _ (List.mem_of_mem_getLast? carriage)
  have start := position_cut whole
  have stop := position_cut whole'
  have text := lineText_cut whole
  rw [List.append_assoc, lineStarts_append_span goes, lastLine_append_span goes,
    List.length_append] at stop
  rw [firstLine_span_append goes] at text
  have columns := markedColumns_span (lineStarts 0 before).length (lastLine before).length
    span.length (firstLine after).length positive.2
  unfold snippet
  simp only [known, if_neg positive.1, inRange, begins, start, stop, text, List.length_append,
    columns, List.take_left, paint, plain]
  cases label with
  | none => simp [lineRow, marksRow, numberMargin, marksMargin, labelPart, lineCount_ofText]
  | some label => simp [lineRow, marksRow, numberMargin, marksMargin, labelPart, lineCount_ofText]

def heading (r : Reporter) (d : Diagnostic) : String :=
  r.placeText d ++ " - " ++ r.paint (.ofSeverity d.severity) d.severity.label ++ r.codePart d.code
    ++ ": " ++ d.message

theorem head?_advice (r : Reporter) (kind : ViolationKind) (path : String) :
    (r.advice kind path).toList.head? = some '\n' := by
  simp [advice]

theorem head?_relatedLine (r : Reporter) (place : RelatedPlace) :
    (r.relatedLine place).toList.head? = some '\n' := by
  simp [relatedLine]

/-- Behind the text, what a report says begins on a line of its own. -/
theorem format_rows (r : Reporter) (d : Diagnostic) :
    ∃ rest : List Char, (∀ c ∈ rest.head?, c = '\n') ∧
      (r.format d).toList = (r.heading d).toList ++
        (r.snippet d ((ViolationKind.ofCode? d.code).map ViolationKind.label)).toList ++ rest := by
  have related : ∀ c ∈ (String.join (d.related.map r.relatedLine)).toList.head?, c = '\n' := by
    rw [String.toList_join]
    cases d.related with
    | nil => simp
    | cons place more =>
      rw [List.map_cons, List.flatMap_cons, List.head?_append, head?_relatedLine]
      rintro c ⟨⟩
      rfl
  cases kind : ViolationKind.ofCode? d.code with
  | none =>
    apply Exists.intro
    apply And.intro related
    simp only [format, heading, kind, Option.map_none, String.toList_append, List.append_assoc,
      String.toList_empty, List.nil_append]
  | some kind_ =>
    refine ⟨(r.advice kind_ (d.arguments.headD "")).toList ++
      (String.join (d.related.map r.relatedLine)).toList, ?_, ?_⟩
    · rw [List.head?_append, head?_advice]
      rintro c ⟨⟩
      rfl
    · simp only [format, heading, kind, Option.map_some, String.toList_append, List.append_assoc]

end Reporter

open Reporter

/-- A diagnostic whose span stays in its line is shown with the line and, in the next row, with one
mark for each character of the span. The marks stand in the columns of the span just when the number
of the line has at most three digits. -/
theorem formatDiagnostic_marks {d : Diagnostic} (before span after : List Char)
    (begins : d.start = byteLength before) (wide : d.length = byteLength span)
    (reached : d.start + d.length < offsetCount) (some_ : span ≠ [])
    (goes : ∀ c ∈ span, inLine c = true) :
    let source := String.ofList (before ++ (span ++ after))
    let number := (LineMap.ofText before).lineCount
    let left := numberMargin number ++ lastLine before
    let row := left ++ span ++ firstLine after
    ∃ marks rest,
      (formatDiagnostic d source).toList =
        (((ofColor false).addSource d.file source).heading d).toList
          ++ '\n' :: row ++ '\n' :: marks ++ rest ∧
      ('\n' ∉ row ∧ '\n' ∉ marks ∧ ∀ c ∈ rest.head?, c = '\n') ∧
      IsMarked marks (8 + (lastLine before).length) (8 + (lastLine before).length + span.length) ∧
      (IsMarked marks left.length (left.length + span.length) ↔ number ≤ 999) := by
  intro source number left row
  let r := (ofColor false).addSource d.file source
  have known : r.sources[d.file]? = some (.ofText (before ++ (span ++ after))) := by
    simp [r, source, addSource, ofColor]
  obtain ⟨rest, rows, whole⟩ := r.format_rows d
  have shown := snippet_cut rfl known begins wide reached some_ goes
    ((ViolationKind.ofCode? d.code).map ViolationKind.label)
  have marked := isMarked_marksRow (lastLine before) span (ViolationKind.ofCode? d.code)
  refine ⟨marksRow (lastLine before) span _, rest, ?_,
    ⟨oneLine_lineRow before after goes, oneLine_marksRow _, rows⟩, marked, ?_⟩
  · rw [shown] at whole
    simp only [List.append_assoc] at whole ⊢
    exact whole
  · have margins := length_numberMargin_eq_iff number
    have columns : left.length = (numberMargin number).length + (lastLine before).length :=
      List.length_append ..
    have positive := List.length_pos_iff.2 some_
    constructor
    · intro aligned
      have same := marked.first_eq aligned (by omega)
      exact margins.1 (by omega)
    · intro small
      rw [columns, margins.2 small]
      exact marked

theorem formatDiagnostic_marks_thousandth :
    let d := Diagnostic.error "f.js" 999 3 "m" 0
    let source := String.ofList (List.replicate 999 '\n' ++ (['a', 'b', 'c'] ++ []))
    ∃ marks rest,
      (formatDiagnostic d source).toList =
        (((ofColor false).addSource d.file source).heading d).toList
          ++ '\n' :: "  1000   abc".toList ++ '\n' :: marks ++ rest ∧
      IsMarked marks 8 11 ∧ ¬IsMarked marks 9 12 := by
  have number : (LineMap.ofText (List.replicate 999 '\n')).lineCount = 1000 := by
    rw [LineMap.lineCount_ofText]
    decide +kernel
  have left : lastLine (List.replicate 999 '\n') = [] := by decide +kernel
  obtain ⟨marks, rest, whole, -, marked, aligned⟩ := formatDiagnostic_marks
    (d := .error "f.js" 999 3 "m" 0) (List.replicate 999 '\n') ['a', 'b', 'c'] []
    (by decide +kernel) rfl (by decide) (by decide) (List.all_eq_true.1 (by decide))
  have row : numberMargin 1000 ++ [] ++ ['a', 'b', 'c'] ++ firstLine [] =
      "  1000   abc".toList := by decide +kernel
  rw [number, left, row] at whole
  rw [number, left] at aligned
  rw [left] at marked
  exact ⟨marks, rest, whole, marked, fun same => absurd (aligned.1 same) (by decide)⟩

end PathGuard
