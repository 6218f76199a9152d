import Mathlib.Data.List.DropRight
import PathGuard.Text.Dotted
/-!
# Segments of dotted paths

Names with points between them have the segments of the names, one after another: a point in a name
ends a segment like any other point. A path that descends from another one begins with its segments.
-/

namespace PathGuard

/-! ### Segments of texts -/

theorem dottedSegments_eq_splitOn (text : List Char) : dottedSegments text = text.splitOn '.' := by
  induction text with
  | nil => rfl
  | cons c rest ih =>
    rw [dottedSegments, List.splitOn_cons_eq_if_modifyHead, ih]
    by_cases point : c = '.'
    · rw [if_pos point, if_pos (beq_iff_eq.2 point)]
    · rw [if_neg point, if_neg (mt beq_iff_eq.1 point)]
      cases segments : rest.splitOn '.' with
      | nil => exact absurd segments (List.splitOn_ne_nil '.' rest)
      | cons segment more => rfl

theorem not_mem_of_mem_dottedSegments {text segment : List Char}
    (member : segment ∈ dottedSegments text) : '.' ∉ segment := by
  induction text generalizing segment with
  | nil =>
    rw [List.mem_singleton.1 member]
    exact List.not_mem_nil
  | cons c rest ih =>
    unfold dottedSegments at member
    split at member
    · rcases List.mem_cons.1 member with rfl | later
      · exact List.not_mem_nil
      · exact ih later
    · next point =>
      split at member
      · rw [List.mem_singleton.1 member, List.mem_singleton]
        exact fun same => point same.symm
      · next first more segments =>
        rw [segments] at ih
        rcases List.mem_cons.1 member with rfl | later
        · rw [List.mem_cons, not_or]
          exact ⟨fun same => point same.symm, ih (List.mem_cons_self ..)⟩
        · exact ih (List.mem_cons_of_mem _ later)

theorem intercalate_dottedSegments (text : List Char) :
    ['.'].intercalate (dottedSegments text) = text := by
  rw [dottedSegments_eq_splitOn, List.intercalate_splitOn]

theorem dottedSegments_ne_nil (text : List Char) : dottedSegments text ≠ [] := by
  rw [dottedSegments_eq_splitOn]
  exact List.splitOn_ne_nil '.' text

theorem dottedSegments_append (first rest : List Char) :
    dottedSegments (first ++ '.' :: rest) = dottedSegments first ++ dottedSegments rest := by
  simp only [dottedSegments_eq_splitOn, List.splitOn_append_cons_self]

theorem dottedSegments_of_not_mem {text : List Char} (noPoint : '.' ∉ text) :
    dottedSegments text = [text] := by
  rw [dottedSegments_eq_splitOn, List.splitOn_eq_singleton noPoint]

theorem dottedSegments_intercalate {texts : List (List Char)} (some_ : texts ≠ []) :
    dottedSegments (['.'].intercalate texts) = texts.flatMap dottedSegments := by
  induction texts with
  | nil => exact absurd rfl some_
  | cons text texts ih =>
    cases texts with
    | nil => rw [List.intercalate_singleton, List.flatMap_singleton]
    | cons next texts =>
      rw [List.intercalate_cons_cons, List.append_assoc, List.singleton_append,
        dottedSegments_append, List.flatMap_cons, ih (List.cons_ne_nil next texts)]

/-! ### Segments of paths -/

def segmentsOf (path : String) : List String := (dottedSegments path.toList).map String.ofList

theorem mem_segmentsOf {path segment : String} :
    segment ∈ segmentsOf path ↔ segment.toList ∈ dottedSegments path.toList := by
  rw [segmentsOf, List.mem_map]
  constructor
  · rintro ⟨chars, member, rfl⟩
    rwa [String.toList_ofList]
  · intro member
    exact ⟨segment.toList, member, String.ofList_toList⟩

theorem segmentsOf_append (first rest : String) :
    segmentsOf (first ++ "." ++ rest) = segmentsOf first ++ segmentsOf rest := by
  have text : (first ++ "." ++ rest).toList = first.toList ++ '.' :: rest.toList := by simp
  rw [segmentsOf, text, dottedSegments_append, List.map_append]
  rfl

theorem segmentsOf_of_not_mem {name : String} (noPoint : '.' ∉ name.toList) :
    segmentsOf name = [name] := by
  rw [segmentsOf, dottedSegments_of_not_mem noPoint, List.map_singleton, String.ofList_toList]

theorem segmentsOf_intercalate {names : List String} (some_ : names ≠ []) :
    segmentsOf (".".intercalate names) = names.flatMap segmentsOf := by
  rw [segmentsOf, String.toList_intercalate]
  change List.map _ (dottedSegments (['.'].intercalate _)) = _
  rw [dottedSegments_intercalate (by simpa using some_), List.flatMap_map, List.map_flatMap]
  rfl

theorem descendsFrom_iff {path ancestor : String} :
    descendsFrom path ancestor = true ↔
      path = ancestor ∨ ∃ rest, path = ancestor ++ "." ++ rest := by
  have behind : (ancestor.toList ++ ['.']).isPrefixOf path.toList = true ↔
      ∃ rest, path = ancestor ++ "." ++ rest := by
    rw [List.isPrefixOf_iff_prefix]
    constructor
    · rintro ⟨rest, same⟩
      refine ⟨String.ofList rest, String.toList_injective ?_⟩
      rw [← same]
      simp
    · rintro ⟨rest, rfl⟩
      exact ⟨rest.toList, by simp⟩
  rw [descendsFrom, Bool.or_eq_true, beq_iff_eq, behind]

theorem utf8ByteSize_le_of_descendsFrom {path ancestor : String}
    (descends : descendsFrom path ancestor = true) :
    ancestor.utf8ByteSize ≤ path.utf8ByteSize := by
  rcases descendsFrom_iff.1 descends with rfl | ⟨rest, rfl⟩
  · exact Nat.le_refl _
  · rw [String.append_assoc, String.utf8ByteSize_append]
    exact Nat.le_add_right ..

/-- Of two paths that the same path descends from, the longer one decides. -/
theorem eq_of_descendsFrom {path one other : String} (h : descendsFrom path one = true)
    (h' : descendsFrom path other = true) (same : one.utf8ByteSize = other.utf8ByteSize) :
    one = other := by
  have begins {q : String} (h : descendsFrom path q = true) : q.toList <+: path.toList := by
    rcases descendsFrom_iff.1 h with rfl | ⟨rest, rfl⟩
    · exact List.prefix_refl _
    · exact ⟨('.' :: rest.toList), by simp⟩
  -- both begin the same text, so one begins the other, and neither has more bytes
  have shorter {a b : String} (h : a.toList <+: b.toList) (size : a.utf8ByteSize = b.utf8ByteSize) :
      a = b := by
    obtain ⟨rest, split⟩ := h
    have parts : b = a ++ String.ofList rest := by
      apply String.toList_inj.1
      rw [← split]
      simp
    rw [parts, String.utf8ByteSize_append] at size
    have nothing : (String.ofList rest).utf8ByteSize = 0 := by omega
    rw [String.utf8ByteSize_eq_zero_iff] at nothing
    rw [parts, nothing, String.append_empty]
  rcases List.prefix_or_prefix_of_prefix (begins h) (begins h') with before | before
  · exact shorter before same
  · exact (shorter before same.symm).symm

theorem segmentsOf_prefix {path ancestor : String} (descends : descendsFrom path ancestor = true) :
    segmentsOf ancestor <+: segmentsOf path := by
  rcases descendsFrom_iff.1 descends with rfl | ⟨rest, rfl⟩
  · exact List.prefix_refl _
  · exact ⟨segmentsOf rest, (segmentsOf_append ancestor rest).symm⟩

/-- Of names that together begin with the segments of a path, the first ones are these segments just
when no point is in them. -/
theorem segmentsOf_prefix_names {path : String} {names : List String}
    (begins : segmentsOf path <+: names.flatMap segmentsOf) :
    segmentsOf path <+: names ↔
      ∀ name ∈ names.take (segmentsOf path).length, '.' ∉ name.toList := by
  constructor
  · intro first name member
    rw [← List.prefix_iff_eq_take.1 first] at member
    exact not_mem_of_mem_dottedSegments (mem_segmentsOf.1 member)
  · intro noPoints
    generalize size : (segmentsOf path).length = count at noPoints
    -- the names without points are their own segments
    have own : (names.take count).flatMap segmentsOf = names.take count := by
      calc
        (names.take count).flatMap segmentsOf = (names.take count).flatMap fun name => [name] :=
          List.flatMap_congr fun name member => segmentsOf_of_not_mem (noPoints name member)
        _ = names.take count := List.flatMap_singleton' _
    have all : names.flatMap segmentsOf =
        names.take count ++ (names.drop count).flatMap segmentsOf := by
      conv_lhs => rw [← List.take_append_drop count names]
      rw [List.flatMap_append, own]
    rw [all] at begins
    by_cases enough : count ≤ names.length
    · have length : (segmentsOf path).length = (names.take count).length := by
        rw [List.length_take, size]
        omega
      have same := List.prefix_iff_eq_take.1 begins
      rw [length, List.take_left] at same
      rw [same]
      exact List.take_prefix count names
    · rw [List.take_of_length_le (by omega), List.drop_of_length_le (by omega), List.flatMap_nil,
        List.append_nil] at begins
      exact begins

end PathGuard
