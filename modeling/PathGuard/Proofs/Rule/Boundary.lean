import PathGuard.Grammar.Program
import PathGuard.Proofs.Access.Path
import PathGuard.Proofs.Rule.Protected
import PathGuard.Rule.Check
/-!
# Boundaries of properties

An access denotes a list of names, one for each property, and is matched by the text of that list.
The segments of a path that matches are the first segments of the names, so they are names
themselves as long as none of these has a point in it, which a string key or an escape can give it.
-/

namespace PathGuard

namespace Tree

variable {t : Tree}

theorem Denotes.segments_ne_nil {count i : Nat} {segments : List String} {base : PathBase}
    (h : t.Denotes count i segments base) : segments ≠ [] := by
  induction h with
  | name node kind record => exact List.cons_ne_nil _ _
  | metaProperty node kind record first second => exact List.cons_ne_nil _ _
  | parenthesized node kind record inner ih => exact ih
  | access node access record static inner ih => exact List.append_ne_nil_of_left_ne_nil ih _

theorem segmentsOf_text {id : Child} {p : AccessPath} (found : t.path? id = some p) :
    segmentsOf p.text = p.segments.flatMap segmentsOf := by
  obtain ⟨i, count, segments, -, -, denotes, same⟩ := denotes_of_pathWithin found
  apply segmentsOf_intercalate
  rw [same, List.append_nil]
  exact denotes.segments_ne_nil

end Tree

namespace ProtectedPaths

theorem match?_prefix {p : ProtectedPaths} {path q : String} (found : p.match? path = some q) :
    segmentsOf q <+: segmentsOf path := by
  obtain ⟨-, descends, -⟩ := match?_eq_some.1 found
  exact segmentsOf_prefix descends

end ProtectedPaths

namespace Checker

variable {c : Checker}

theorem path?_of_globalPath? {expression context : Child} {p : AccessPath}
    (found : c.globalPath? expression context = some p) : c.tree.path? expression = some p :=
  (Option.filter_eq_some_iff.1 found).1

theorem checkAccess?_match {id : Child} {v : Violation} (found : c.checkAccess? id = some v) :
    ∃ p, c.tree.path? id = some p ∧ c.paths.match? p.text = some v.path := by
  unfold checkAccess? at found
  split at found
  · cases found
  · split at found
    · cases found
    · obtain ⟨path, matched, rfl⟩ := Option.map_eq_some_iff.1 found
      obtain ⟨p, global, matched⟩ := Option.bind_eq_some_iff.1 matched
      exact ⟨p, path?_of_globalPath? global, matched⟩

theorem checkAccess?_segments {id : Child} {v : Violation} (found : c.checkAccess? id = some v) :
    ∃ p, c.tree.path? id = some p ∧ segmentsOf v.path <+: p.segments.flatMap segmentsOf := by
  obtain ⟨p, path, matched⟩ := checkAccess?_match found
  have first := ProtectedPaths.match?_prefix matched
  rw [Tree.segmentsOf_text path] at first
  exact ⟨p, path, first⟩

/-- The segments of the path that a violating access is matched by are the first names that it
denotes just when no point is in these. -/
theorem accessViolation_boundaries {id : Child} {v : Violation}
    (found : c.checkAccess? id = some v) :
    ∃ p, c.tree.path? id = some p ∧
      segmentsOf v.path <+: p.segments.flatMap segmentsOf ∧
      (segmentsOf v.path <+: p.segments ↔
        ∀ name ∈ p.segments.take (segmentsOf v.path).length, '.' ∉ name.toList) := by
  obtain ⟨p, path, first⟩ := checkAccess?_segments found
  exact ⟨p, path, first, segmentsOf_prefix_names first⟩

/-- The two names of `a?.['b.c']` begin with the segments of `a.b` and not with `a` and `b`. -/
theorem accessViolation_boundaries_point :
    let c : Checker := ⟨(parseFile "key.ts" "a?.['b.c'];").tree, .nothingBound, ⟨["a.b"]⟩⟩
    let v : Violation := ⟨.optionalChaining, "a.b", 0, 10⟩
    c.checkAccess? (some 2) = some v ∧ ∃ p, c.tree.path? (some 2) = some p ∧
      segmentsOf v.path <+: p.segments.flatMap segmentsOf ∧ ¬segmentsOf v.path <+: p.segments := by
  intro c v
  have found : c.checkAccess? (some 2) = some v := by decide +kernel
  have names : c.tree.path? (some 2) =
      some ⟨["a", "b.c"], .identifier 0, true⟩ := by decide +kernel
  obtain ⟨p, path, first, boundaries⟩ := accessViolation_boundaries found
  have same := path
  rw [names, Option.some.injEq] at same
  have point : ¬∀ name ∈ p.segments.take (segmentsOf v.path).length, '.' ∉ name.toList := by
    rw [← same]
    decide
  exact ⟨found, p, path, first, mt boundaries.1 point⟩

end Checker

end PathGuard
