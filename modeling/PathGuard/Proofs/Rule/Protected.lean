import Mathlib.Data.List.Induction
import PathGuard.Proofs.Text.Dotted
import PathGuard.Rule.Options
/-!
# Matching protected paths

A path is matched when it is protected or goes on behind a protected path with a point, and then by
the longest protected path of which this holds. There is only one that is longest, since all of them
are beginnings of the same text.
-/

namespace PathGuard

namespace ProtectedPaths

theorem longest?_concat (texts : List String) (text : String) :
    longest? (texts ++ [text]) =
      match longest? texts with
      | some other =>
        if other.utf8ByteSize ≤ text.utf8ByteSize then some text else longest? texts
      | none => some text := by
  rw [longest?, List.foldl_append]
  rfl

theorem longest?_spec (texts : List String) :
    match longest? texts with
    | none => texts = []
    | some text => text ∈ texts ∧ ∀ other ∈ texts, other.utf8ByteSize ≤ text.utf8ByteSize := by
  induction texts using List.reverseRecOn with
  | nil => rfl
  | append_singleton texts text ih =>
    rw [longest?_concat]
    split at ih
    · next none_ =>
      rw [none_, ih]
      simp
    · next best some_ =>
      obtain ⟨member, longest⟩ := ih
      rw [some_]
      by_cases longer : best.utf8ByteSize ≤ text.utf8ByteSize
      · simp only [longer, if_true]
        refine ⟨List.mem_append_right _ (List.mem_singleton_self _), fun other there => ?_⟩
        rcases List.mem_append.1 there with old | new
        · exact Nat.le_trans (longest other old) longer
        · exact Nat.le_of_eq (congrArg _ (List.mem_singleton.1 new))
      · simp only [longer, if_false]
        refine ⟨List.mem_append_left _ member, fun other there => ?_⟩
        rcases List.mem_append.1 there with old | new
        · exact longest other old
        · rw [List.mem_singleton.1 new]
          omega

theorem match?_eq_longest? (p : ProtectedPaths) (path : String) :
    p.match? path = longest? (p.paths.filter (descendsFrom path)) := by
  unfold match?
  split
  · next exact_ =>
    have self : path ∈ p.paths.filter (descendsFrom path) :=
      List.mem_filter.2 ⟨List.contains_iff_mem.1 exact_, descendsFrom_iff.2 (.inl rfl)⟩
    have spec := longest?_spec (p.paths.filter (descendsFrom path))
    split at spec
    · rw [spec] at self
      cases self
    · next text found =>
      obtain ⟨member, longest⟩ := spec
      have descends := (List.mem_filter.1 member).2
      have size := Nat.le_antisymm (longest path self) (utf8ByteSize_le_of_descendsFrom descends)
      rw [found, eq_of_descendsFrom (descendsFrom_iff.2 (.inl rfl)) descends size]
  · rfl

theorem match?_isSome {p : ProtectedPaths} {path : String} :
    (p.match? path).isSome = true ↔ ∃ q ∈ p.paths, descendsFrom path q = true := by
  have spec := longest?_spec (p.paths.filter (descendsFrom path))
  rw [match?_eq_longest?]
  split at spec
  · next none_ =>
    rw [none_]
    constructor
    · intro no
      cases no
    · rintro ⟨q, hq, descends⟩
      have there := List.mem_filter.2 ⟨hq, descends⟩
      rw [spec] at there
      cases there
  · next text some_ =>
    rw [some_]
    have there := List.mem_filter.1 spec.1
    exact ⟨fun _ => ⟨text, there⟩, fun _ => rfl⟩

theorem match?_of_isEmpty {p : ProtectedPaths} (empty : p.isEmpty = true) (path : String) :
    p.match? path = none := by
  rw [isEmpty, List.isEmpty_iff] at empty
  rw [match?_eq_longest?, empty]
  rfl

theorem match?_eq_some {p : ProtectedPaths} {path q : String} :
    p.match? path = some q ↔ q ∈ p.paths ∧ descendsFrom path q = true ∧
      ∀ other ∈ p.paths, descendsFrom path other = true →
        other.utf8ByteSize ≤ q.utf8ByteSize := by
  have spec := longest?_spec (p.paths.filter (descendsFrom path))
  rw [match?_eq_longest?]
  split at spec
  · next none_ =>
    rw [none_]
    constructor
    · intro no
      cases no
    · rintro ⟨hq, descends, -⟩
      have there := List.mem_filter.2 ⟨hq, descends⟩
      rw [spec] at there
      cases there
  · next text some_ =>
    obtain ⟨there, longest⟩ := spec
    obtain ⟨member, descends⟩ := List.mem_filter.1 there
    rw [some_, Option.some.injEq]
    constructor
    · rintro rfl
      exact ⟨member, descends, fun other ho hd => longest other (List.mem_filter.2 ⟨ho, hd⟩)⟩
    · rintro ⟨hq, hd, best⟩
      have up := best text member descends
      have down := longest q (List.mem_filter.2 ⟨hq, hd⟩)
      exact eq_of_descendsFrom descends hd (Nat.le_antisymm up down)

end ProtectedPaths

/-! ### What the options protect -/

namespace Options

/-- Whether a path is one of those that the options protect: blank ones are none. -/
def Protects (o : Options) (p : String) : Prop := p ∈ o.entries ∧ isAllBlank p.toList = false

def Covers (o : Options) (path p : String) : Prop :=
  o.Protects p ∧ (path = p ∨ ∃ rest, path = p ++ "." ++ rest)

/-- Whether `p` is the longest protected path that covers a path. -/
def CoversBest (o : Options) (path p : String) : Prop :=
  o.Covers path p ∧ ∀ q, o.Covers path q → q ≠ p → q.utf8ByteSize < p.utf8ByteSize

variable {o : Options} {path p : String}

theorem mem_protectedPaths : p ∈ o.protectedPaths.paths ↔ o.Protects p := by
  simp [protectedPaths, ProtectedPaths.ofList, Protects]

theorem contains_iff : o.protectedPaths.contains p = true ↔ o.Protects p := by
  rw [ProtectedPaths.contains, List.contains_iff_mem, mem_protectedPaths]

theorem covers_iff : o.Covers path p ↔ p ∈ o.protectedPaths.paths ∧ descendsFrom path p = true := by
  rw [mem_protectedPaths, descendsFrom_iff, Covers]

theorem match?_eq_some : o.protectedPaths.match? path = some p ↔ o.CoversBest path p := by
  rw [ProtectedPaths.match?_eq_some, CoversBest, covers_iff, and_assoc]
  refine and_congr_right fun member => and_congr_right fun descends => ?_
  constructor
  · intro longest q covers other
    obtain ⟨hq, hd⟩ := covers_iff.1 covers
    have le := longest q hq hd
    have ne : q.utf8ByteSize ≠ p.utf8ByteSize := fun same => other (eq_of_descendsFrom hd descends same)
    omega
  · intro longest q hq hd
    by_cases same : q = p
    · exact Nat.le_of_eq (congrArg _ same)
    · exact Nat.le_of_lt (longest q (covers_iff.2 ⟨hq, hd⟩) same)

theorem match?_isSome : (o.protectedPaths.match? path).isSome = true ↔ ∃ p, o.Covers path p := by
  rw [ProtectedPaths.match?_isSome]
  exact exists_congr fun p => covers_iff.symm

end Options

end PathGuard
