import PathGuard.Proofs.Rule.Protected
/-!
# Nearest ancestors

A path descends from those that its segments begin with. The ancestors of one path descend from each
other, and the longest of them is the one that descends from all others: this is the one that
protected paths are matched by.
-/

namespace PathGuard

theorem intercalate_segmentsOf (path : String) : ".".intercalate (segmentsOf path) = path := by
  apply String.toList_injective
  rw [String.toList_intercalate, segmentsOf, List.map_map]
  change ['.'].intercalate (List.map (fun chars => (String.ofList chars).toList) _) = _
  simp only [String.toList_ofList, List.map_id']
  exact intercalate_dottedSegments path.toList

theorem descendsFrom_iff_segmentsOf {path ancestor : String} :
    descendsFrom path ancestor = true ↔ segmentsOf ancestor <+: segmentsOf path := by
  constructor
  · exact segmentsOf_prefix
  · rintro ⟨more, split⟩
    rw [descendsFrom_iff]
    have whole : path = ".".intercalate (segmentsOf ancestor ++ more) := by
      rw [split, intercalate_segmentsOf]
    cases more with
    | nil =>
      left
      rw [whole, List.append_nil, intercalate_segmentsOf]
    | cons segment more =>
      right
      have some_ : segmentsOf ancestor ≠ [] := by
        simpa [segmentsOf] using dottedSegments_ne_nil ancestor.toList
      refine ⟨".".intercalate (segment :: more), ?_⟩
      calc
        path = ".".intercalate (segmentsOf ancestor ++ segment :: more) := whole
        _ = ".".intercalate (segmentsOf ancestor) ++ "." ++ ".".intercalate (segment :: more) :=
          String.intercalate_append_of_ne_nil some_ (List.cons_ne_nil _ _)
        _ = ancestor ++ "." ++ ".".intercalate (segment :: more) := by
          rw [intercalate_segmentsOf]

theorem segmentsOf_prefix_iff {path ancestor : String} :
    segmentsOf ancestor <+: segmentsOf path ↔
      ancestor.toList.splitOn '.' <+: path.toList.splitOn '.' := by
  rw [segmentsOf, segmentsOf, List.prefix_map_iff_of_injective fun _ _ same => String.ofList_injective same,
    dottedSegments_eq_splitOn, dottedSegments_eq_splitOn]

theorem descendsFrom_of_le {path one other : String} (h : descendsFrom path one = true)
    (h' : descendsFrom path other = true) (le : other.utf8ByteSize ≤ one.utf8ByteSize) :
    descendsFrom one other = true := by
  have begins := descendsFrom_iff_segmentsOf.1 h
  have begins' := descendsFrom_iff_segmentsOf.1 h'
  rw [descendsFrom_iff_segmentsOf]
  rcases List.prefix_or_prefix_of_prefix begins' begins with before | before
  · exact before
  · have ge := utf8ByteSize_le_of_descendsFrom (descendsFrom_iff_segmentsOf.2 before)
    have same := eq_of_descendsFrom h' h (Nat.le_antisymm le ge)
    exact same ▸ List.prefix_refl _

namespace ProtectedPaths

/-- Whether an entry protects a path: it is no blank one, and the path is the entry or descends from
it. -/
def Guards (entries : List String) (path p : String) : Prop :=
  p ∈ entries ∧ isAllBlank p.toList = false ∧ descendsFrom path p = true

variable {entries : List String} {path p : String}

theorem guards_iff :
    Guards entries path p ↔ p ∈ (ofList entries).paths ∧ descendsFrom path p = true := by
  simp [Guards, ofList, and_assoc]

theorem match?_ofList_eq_some :
    (ofList entries).match? path = some p ↔
      Guards entries path p ∧ ∀ q, Guards entries path q → descendsFrom p q = true := by
  rw [match?_eq_some, ← and_assoc, ← guards_iff]
  apply and_congr_right
  intro guards
  constructor
  · intro longest q guards'
    obtain ⟨member, descends⟩ := guards_iff.1 guards'
    exact descendsFrom_of_le guards.2.2 descends (longest q member descends)
  · intro nearest q member descends
    exact utf8ByteSize_le_of_descendsFrom (nearest q (guards_iff.2 ⟨member, descends⟩))

theorem match?_ofList_eq_none :
    (ofList entries).match? path = none ↔ ∀ p, ¬Guards entries path p := by
  rw [← Option.not_isSome_iff_eq_none, match?_isSome, not_exists]
  simp only [guards_iff]

/-- A path descends from another one when its texts between points begin with those of the other
one. Whatever the entries are and in whatever order they come, a path is matched by the entry that
guards it and descends from all others that guard it, and by none just when no entry guards it. -/
theorem match?_nearest :
    (∀ path ancestor : String, descendsFrom path ancestor = true ↔
      ancestor.toList.splitOn '.' <+: path.toList.splitOn '.') ∧
    ∀ (entries : List String) (path : String),
      (∀ p, (ofList entries).match? path = some p ↔
        Guards entries path p ∧ ∀ q, Guards entries path q → descendsFrom p q = true) ∧
      ((ofList entries).match? path = none ↔ ∀ p, ¬Guards entries path p) := by
  constructor
  · intro path ancestor
    exact descendsFrom_iff_segmentsOf.trans segmentsOf_prefix_iff
  · intro entries path
    exact ⟨fun p => match?_ofList_eq_some, match?_ofList_eq_none⟩

/-- Entries may be blank, come twice and in any order, and have empty segments. -/
example : (ofList ["a", " ", "a..b", "a.", "a"]).match? "a..b.c" = some "a..b" := by decide

end ProtectedPaths

end PathGuard
