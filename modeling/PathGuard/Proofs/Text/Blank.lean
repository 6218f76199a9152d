import PathGuard.Proofs.Text.Dotted
/-!
# Blanks in dotted paths

A text keeps its ends when it is trimmed just when neither its first nor its last character is a
blank. These characters belong to the first and the last segment of a path, so a path whose segments
are all tidy has no blanks at its ends, and no blank segment.
-/

namespace PathGuard

theorem trimBlanks_eq_self_iff {text : List Char} :
    trimBlanks text = text ↔
      (∀ c ∈ text.head?, isBlank c = false) ∧ ∀ c ∈ text.getLast?, isBlank c = false := by
  have front : text.dropWhile isBlank = text ↔ ∀ c ∈ text.head?, isBlank c = false := by
    cases text with
    | nil => simp
    | cons c text => simp [List.dropWhile_eq_self_iff]
  have back : text.rdropWhile isBlank = text ↔ ∀ c ∈ text.getLast?, isBlank c = false := by
    rw [List.rdropWhile_eq_self_iff]
    constructor
    · intro last c member
      obtain ⟨some_, rfl⟩ := List.mem_getLast?_eq_getLast member
      exact Bool.eq_false_iff.2 (last some_)
    · intro last some_
      rw [last _ (List.getLast?_eq_some_getLast some_)]
      exact Bool.false_ne_true
  have both : trimBlanks text = (text.dropWhile isBlank).rdropWhile isBlank := rfl
  rw [← front, ← back, both]
  constructor
  · intro same
    -- neither end gives anything away, since together they give away nothing
    have whole : text.dropWhile isBlank = text := by
      apply (List.dropWhile_suffix isBlank).eq_of_length_le
      calc
        text.length = ((text.dropWhile isBlank).rdropWhile isBlank).length := by rw [same]
        _ ≤ (text.dropWhile isBlank).length := (List.rdropWhile_prefix _ _).length_le
    rw [whole] at same
    exact ⟨whole, same⟩
  · rintro ⟨whole, same⟩
    rw [whole, same]

/-- Whether a segment is not empty and has no blanks at its ends. -/
def IsTidy (segment : List Char) : Prop := segment ≠ [] ∧ trimBlanks segment = segment

theorem IsTidy.notBlank {segment : List Char} (tidy : IsTidy segment) :
    isAllBlank segment = false := by
  cases segment with
  | nil => exact absurd rfl tidy.1
  | cons c rest =>
    have first := (trimBlanks_eq_self_iff.1 tidy.2).1 c rfl
    rw [isAllBlank, List.all_cons, first, Bool.false_and]

theorem dottedSegments_head_prefix {text segment : List Char}
    (first : (dottedSegments text).head? = some segment) : segment <+: text := by
  rw [← intercalate_dottedSegments text]
  cases segments : dottedSegments text with
  | nil =>
    rw [segments] at first
    cases first
  | cons one more =>
    rw [segments, List.head?_cons, Option.some.injEq] at first
    subst first
    cases more with
    | nil =>
      apply Exists.intro []
      rw [List.append_nil, List.intercalate_singleton]
    | cons next more =>
      rw [List.intercalate_cons_cons, List.append_assoc]
      exact List.prefix_append ..

theorem dottedSegments_last_suffix {text segment : List Char}
    (last : (dottedSegments text).getLast? = some segment) : segment <:+ text := by
  have ends (segments : List (List Char)) (last : segments.getLast? = some segment) :
      segment <:+ ['.'].intercalate segments := by
    induction segments with
    | nil => cases last
    | cons one more ih =>
      cases more with
      | nil =>
        rw [List.getLast?_singleton, Option.some.injEq] at last
        apply Exists.intro []
        rw [last, List.nil_append, List.intercalate_singleton]
      | cons next more =>
        rw [List.getLast?_cons_cons] at last
        rw [List.intercalate_cons_cons]
        exact (ih last).trans (List.suffix_append ..)
  have begins := ends _ last
  rwa [intercalate_dottedSegments] at begins

theorem trimBlanks_of_tidy {text : List Char}
    (tidy : ∀ segment ∈ dottedSegments text, IsTidy segment) : trimBlanks text = text := by
  have some_ := dottedSegments_ne_nil text
  rw [trimBlanks_eq_self_iff]
  constructor
  · intro c first
    have member := List.head_mem some_
    obtain ⟨rest, split_⟩ := dottedSegments_head_prefix (List.head?_eq_some_head some_)
    rw [← split_, List.head?_append_of_ne_nil _ (tidy _ member).1] at first
    exact (trimBlanks_eq_self_iff.1 (tidy _ member).2).1 c first
  · intro c last
    have member := List.getLast_mem some_
    obtain ⟨rest, split_⟩ := dottedSegments_last_suffix (List.getLast?_eq_some_getLast some_)
    rw [← split_, List.getLast?_append_of_ne_nil _ (tidy _ member).1] at last
    exact (trimBlanks_eq_self_iff.1 (tidy _ member).2).2 c last

theorem hasBlankSegment_of_tidy {text : List Char}
    (tidy : ∀ segment ∈ dottedSegments text, IsTidy segment) : hasBlankSegment text = false := by
  rw [hasBlankSegment, List.any_eq_false]
  intro segment member
  rw [(tidy segment member).notBlank]
  exact Bool.false_ne_true

def HasUntidySegment (path : String) : Prop := ∃ segment ∈ segmentsOf path, ¬IsTidy segment.toList

theorem hasUntidySegment_iff {path : String} :
    HasUntidySegment path ↔ ¬∀ segment ∈ dottedSegments path.toList, IsTidy segment := by
  simp only [HasUntidySegment, segmentsOf, List.mem_map, exists_exists_and_eq_and,
    String.toList_ofList, not_forall, exists_prop]

theorem hasUntidySegment_of_trimBlanks {path : String}
    (surrounded : trimBlanks path.toList ≠ path.toList) : HasUntidySegment path :=
  hasUntidySegment_iff.2 (mt trimBlanks_of_tidy surrounded)

theorem hasUntidySegment_of_hasBlankSegment {path : String}
    (blank : hasBlankSegment path.toList = true) : HasUntidySegment path := by
  rw [hasUntidySegment_iff]
  intro tidy
  rw [hasBlankSegment_of_tidy tidy] at blank
  cases blank

end PathGuard
