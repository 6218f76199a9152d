import PathGuard.Proofs.Rule.Boundary
import PathGuard.Proofs.Rule.Walk
import PathGuard.Proofs.Text.Blank
import PathGuard.Rule.Source
/-!
# Entries that are reported

An entry is reported when there are blanks at its ends or one of its segments is blank, so one of its
segments is untidy. A text can violate it all the same when this segment belongs to one of the names
that the text puts together, which a string key or an escape can bring about.
-/

namespace PathGuard

/-! ### What is reported -/

namespace Options

theorem hasUntidySegment_of_mem_entryIssues {index : Nat} {path p : String} {issue : OptionsIssue}
    (member : issue ∈ entryIssues index path) (about : issue.path? = some p) :
    HasUntidySegment p := by
  unfold entryIssues at member
  dsimp only at member
  split at member
  · rw [List.mem_singleton.1 member] at about
    cases about
  · rcases List.mem_append.1 member with blanks | segment
    · split at blanks
      · cases blanks
      · next surrounded =>
        rw [List.mem_singleton.1 blanks] at about
        cases about
        exact hasUntidySegment_of_trimBlanks surrounded
    · split at segment
      · next empty =>
        rw [List.mem_singleton.1 segment] at about
        cases about
        exact hasUntidySegment_of_hasBlankSegment empty
      · cases segment

theorem hasUntidySegment_of_mem_issuesFrom {index : Nat} {entries : List String} {p : String}
    {issue : OptionsIssue} (member : issue ∈ issuesFrom index entries)
    (about : issue.path? = some p) : HasUntidySegment p := by
  induction entries generalizing index with
  | nil => cases member
  | cons entry entries ih =>
    rcases List.mem_append.1 member with here | later
    · exact hasUntidySegment_of_mem_entryIssues here about
    · exact ih later

theorem hasUntidySegment_of_mem_issues {o : Options} {p : String} {issue : OptionsIssue}
    (member : issue ∈ o.issues) (about : issue.path? = some p) : HasUntidySegment p := by
  unfold issues at member
  split at member
  · exact hasUntidySegment_of_mem_issuesFrom member about
  · rw [List.mem_singleton.1 member] at about
    cases about

end Options

/-! ### What is violated -/

/-- Whether a node puts names together: those of a path that it denotes, or those of the path that it
takes properties out of, with or without one of the properties. -/
inductive Tree.Uses (t : Tree) (i : NodeId) : List String → Prop where
  | access {p : AccessPath} (path : t.path? (some i) = some p) : Uses t i p.segments
  | initializer {name value : Child} {p : AccessPath}
      (record : t.recordAt? (some i) = some (.variableDeclaration name value))
      (path : t.path? value = some p) : Uses t i p.segments
  | taken {name value element : Child} {p : AccessPath} {elements : NodeList} {key : String}
      (record : t.recordAt? (some i) = some (.variableDeclaration name value))
      (path : t.path? value = some p) (pattern : t.recordAt? name = some (.bindingPattern elements))
      (member : element ∈ elements.nodes) (takes : t.takenProperty? element = some key) :
      Uses t i (p.segments ++ [key])

namespace Checker

variable {c : Checker} {i : NodeId} {v : Violation}

theorem checkPattern?_path {path taken : String} {isOptional : Bool} {elements : List Child}
    {kind : ViolationKind} (found : c.checkPattern? path isOptional elements = some (kind, taken)) :
    taken = path ∨ ∃ element ∈ elements, ∃ key, c.tree.takenProperty? element = some key ∧
      taken = path ++ "." ++ key := by
  unfold checkPattern? at found
  split at found
  · apply Or.inl
    split at found
    · cases found
      rfl
    · cases found
  · apply Or.inr
    obtain ⟨element, member, found⟩ := List.exists_of_findSome?_eq_some found
    obtain ⟨key, takes, found⟩ := Option.bind_eq_some_iff.1 found
    dsimp only at found
    split at found
    · cases found
      exact ⟨element, member, key, takes, rfl⟩
    · cases found

theorem checkDeclaration?_uses (found : c.checkDeclaration? (some i) = some v) :
    ∃ names, c.tree.Uses i names ∧ segmentsOf v.path = names.flatMap segmentsOf := by
  unfold checkDeclaration? at found
  split at found
  · cases found
  · next n node =>
    split at found
    · next name initializer record =>
      have declared : c.tree.recordAt? (some i) =
          some (.variableDeclaration name (some initializer)) := by
        rw [Tree.recordAt?, node]
        exact record
      split at found
      · next elements kind pattern =>
        obtain ⟨p, global, found⟩ := Option.bind_eq_some_iff.1 found
        obtain ⟨⟨kind, path⟩, violated, rfl⟩ := Option.map_eq_some_iff.1 found
        have denoted := path?_of_globalPath? global
        show ∃ names, c.tree.Uses i names ∧ segmentsOf path = names.flatMap segmentsOf
        rcases checkPattern?_path violated with same | ⟨element, member, key, takes, same⟩
        · rw [same]
          exact ⟨p.segments, .initializer declared denoted, Tree.segmentsOf_text denoted⟩
        · apply Exists.intro (p.segments ++ [key])
          apply And.intro (.taken declared denoted pattern member takes)
          rw [same, segmentsOf_append, Tree.segmentsOf_text denoted, List.flatMap_append,
            List.flatMap_singleton]
      · cases found
    · cases found

/-- The segments of a violated path are the first segments of names that the node puts together. -/
theorem Fails.uses (fails : c.Fails i v) :
    ∃ names, c.tree.Uses i names ∧ segmentsOf v.path <+: names.flatMap segmentsOf := by
  cases fails with
  | access node optional found =>
    obtain ⟨p, path, first⟩ := checkAccess?_segments found
    exact ⟨p.segments, .access path, first⟩
  | declaration node kind found =>
    obtain ⟨names, uses, same⟩ := checkDeclaration?_uses found
    exact ⟨names, uses, same ▸ List.prefix_refl _⟩

end Checker

theorem checkSource_argument {o : Options} {file source p : String} {d : Diagnostic}
    (found : checkSource o file source = some d) (argument : p ∈ d.arguments) :
    let parsed := parseFile file source
    ∃ i v, (parsed.checker o.protectedPaths).Fails i v ∧ d = v.diagnostic file ∧ v.path = p := by
  intro parsed
  unfold checkSource checkText at found
  split at found
  · cases found
  · next some_ =>
    dsimp only at found
    split at found
    · cases found
      cases argument
    · obtain ⟨v, first, rfl⟩ := Option.map_eq_some_iff.1 found
      obtain ⟨sound, root, n, isRoot, node, -⟩ := parseFile_sound file source
      have walk := Checker.firstViolation?_eq (c := parsed.checker o.protectedPaths) sound
        (Bool.eq_false_iff.2 some_) (Tree.lt_size_of_node node)
      rw [← isRoot, first] at walk
      obtain ⟨i, -, fails⟩ := List.exists_of_findSome?_eq_some walk.symm
      have same : p = v.path := List.mem_singleton.1 argument
      exact ⟨i, v, Checker.checkNode?_eq_some.1 fails, rfl, same.symm⟩

/-- When a text violates an entry that is reported, an untidy segment of the entry is one of a name
in the text. -/
theorem checkSource_reported {o : Options} {file source p : String} {d : Diagnostic}
    (found : checkSource o file source = some d) (argument : p ∈ d.arguments) :
    ∃ i names, (parseFile file source).tree.Uses i names ∧
      segmentsOf p <+: names.flatMap segmentsOf ∧
      ∀ issue ∈ o.issues, issue.path? = some p →
        ∃ segment ∈ segmentsOf p, ¬IsTidy segment.toList ∧
          ∃ name ∈ names, segment ∈ segmentsOf name := by
  obtain ⟨i, v, fails, -, rfl⟩ := checkSource_argument found argument
  obtain ⟨names, uses, first⟩ := fails.uses
  refine ⟨i, names, uses, first, ?_⟩
  intro issue member about
  obtain ⟨segment, there, untidy⟩ := Options.hasUntidySegment_of_mem_issues member about
  exact ⟨segment, there, untidy, List.mem_flatMap.1 (first.subset there)⟩

/-- The entry `a.b` with a blank behind it is reported, and the string key in `a?.['b ']` is the
name that makes it match. -/
theorem checkSource_reported_blank_key :
    let o : Options := ⟨some ["a.b "]⟩
    ∃ d, checkSource o "key.ts" "a?.['b '];" = some d ∧ "a.b " ∈ d.arguments ∧
      .surroundingBlanks 0 "a.b " ∈ o.issues ∧
      ∃ i names, (parseFile "key.ts" "a?.['b '];").tree.Uses i names ∧
        ∃ name ∈ names, ∃ segment ∈ segmentsOf name, ¬IsTidy segment.toList := by
  intro o
  have arguments : (checkSource o "key.ts" "a?.['b '];").map (·.arguments) = some ["a.b "] := by
    decide +kernel
  obtain ⟨d, wrong, same⟩ := Option.map_eq_some_iff.1 arguments
  have argument : "a.b " ∈ d.arguments := by
    rw [same]
    exact List.mem_singleton_self _
  have reported : OptionsIssue.surroundingBlanks 0 "a.b " ∈ o.issues := by decide
  obtain ⟨i, names, uses, -, untidy⟩ := checkSource_reported wrong argument
  obtain ⟨segment, -, blank, name, member, part⟩ := untidy _ reported rfl
  exact ⟨d, wrong, argument, reported, i, names, uses, name, member, segment, part, blank⟩

end PathGuard
