import Mathlib.Tactic.Choose
import PathGuard.Proofs.Grammar.Program
import PathGuard.Proofs.Rule.Protected
import PathGuard.Proofs.Rule.Walk
import PathGuard.Rule.Source
/-!
# What a check asks of the protected paths

The tree alone decides what each node asks of the protected paths: whether one of them covers a
path, or whether one of some paths is protected itself. So a check depends on which paths are
protected, and not on how they are listed, and when more paths are protected, what was wrong stays
wrong.
-/

namespace PathGuard

namespace ProtectedPaths

def Within (p q : ProtectedPaths) : Prop := p.paths ⊆ q.paths

def Same (p q : ProtectedPaths) : Prop := ∀ path, path ∈ p.paths ↔ path ∈ q.paths

variable {p q : ProtectedPaths}

theorem Within.contains (h : p.Within q) {path : String} (member : p.contains path = true) :
    q.contains path = true :=
  List.contains_iff_mem.2 (h (List.contains_iff_mem.1 member))

theorem Within.match?_isSome (h : p.Within q) {path : String}
    (found : (p.match? path).isSome = true) : (q.match? path).isSome = true := by
  obtain ⟨other, member, descends⟩ := ProtectedPaths.match?_isSome.1 found
  exact ProtectedPaths.match?_isSome.2 ⟨other, h member, descends⟩

theorem Within.isEmpty (h : p.Within q) (some_ : p.isEmpty = false) : q.isEmpty = false := by
  obtain ⟨path, member⟩ := List.isEmpty_eq_false_iff_exists_mem.1 some_
  exact List.isEmpty_eq_false_iff_exists_mem.2 ⟨path, h member⟩

theorem Same.within (h : p.Same q) : p.Within q := fun path => (h path).1

theorem Same.symm (h : p.Same q) : q.Same p := fun path => (h path).symm

theorem Same.contains (h : p.Same q) : p.contains = q.contains := by
  funext path
  exact Bool.eq_iff_iff.2 ⟨h.within.contains, h.symm.within.contains⟩

/-- There is only one longest path, so the order in which paths are listed does not matter. -/
theorem Same.match? (h : p.Same q) : p.match? = q.match? := by
  funext path
  apply Option.ext
  intro best
  rw [match?_eq_some, match?_eq_some, h best]
  simp only [h _]

theorem Same.isEmpty (h : p.Same q) : p.isEmpty = q.isEmpty := by
  cases some_ : p.isEmpty with
  | false => exact (h.within.isEmpty some_).symm
  | true =>
    cases some' : q.isEmpty with
    | true => rfl
    | false => exact some_.symm.trans (h.symm.within.isEmpty some')

end ProtectedPaths

/-- What a node asks of the protected paths, with the span of the node: whether a path covers what
it denotes, or which of the paths that it takes is the first that is protected. -/
inductive Question where
  | access (path : String) (start stop : Nat)
  | declaration (kind : ViolationKind) (taken : List String) (start stop : Nat)

namespace Question

def nothing : Question := .declaration .destructuring [] 0 0

def answer? (p : ProtectedPaths) : Question → Option Violation
  | access path start stop => (p.match? path).map fun found => ⟨.optionalChaining, found, start, stop⟩
  | declaration kind taken start stop =>
    (taken.find? p.contains).map fun path => ⟨kind, path, start, stop⟩

variable {p q : ProtectedPaths}

theorem answer?_same (h : p.Same q) : answer? p = answer? q := by
  funext question
  cases question with
  | access path start stop => rw [answer?, answer?, h.match?]
  | declaration kind taken start stop => rw [answer?, answer?, h.contains]

theorem answer?_isSome (h : p.Within q) (question : Question)
    (found : (question.answer? p).isSome = true) : (question.answer? q).isSome = true := by
  cases question with
  | access path start stop =>
    rw [answer?, Option.isSome_map] at found ⊢
    exact h.match?_isSome found
  | declaration kind taken start stop =>
    rw [answer?, Option.isSome_map, List.find?_isSome] at found ⊢
    obtain ⟨path, member, isProtected⟩ := found
    exact ⟨path, member, h.contains isProtected⟩

end Question

namespace Checker

variable (t : Tree) (r : Resolver)

theorem checkPattern?_asks (path : String) (isOptional : Bool) (elements : List Child) :
    ∃ (kind : ViolationKind) (taken : List String), ∀ p,
      (Checker.mk t r p).checkPattern? path isOptional elements =
      (taken.find? p.contains).map (kind, ·) := by
  cases isOptional with
  | true =>
    refine ⟨.destructuringWithOptional, [path], fun p => ?_⟩
    rw [checkPattern?, if_pos rfl, List.find?_singleton]
    split <;> rfl
  | false =>
    refine ⟨.destructuring,
      (elements.filterMap t.takenProperty?).map fun name => path ++ "." ++ name, fun p => ?_⟩
    rw [checkPattern?, if_neg Bool.false_ne_true]
    induction elements with
    | nil => rfl
    | cons element elements ih =>
      rw [List.findSome?_cons, List.filterMap_cons, ih]
      cases t.takenProperty? element with
      | none => rfl
      | some name =>
        rw [Option.bind_some, List.map_cons, List.find?_cons]
        dsimp only
        cases p.contains (path ++ "." ++ name) <;> rfl

theorem globalPath?_paths (p : ProtectedPaths) (expression context : Child) :
    (Checker.mk t r p).globalPath? expression context =
      (Checker.mk t r ⟨[]⟩).globalPath? expression context := by
  rw [globalPath?, globalPath?]

theorem checkAccess?_asks (id : Child) :
    ∃ question : Question, ∀ p, (Checker.mk t r p).checkAccess? id = question.answer? p := by
  simp only [checkAccess?, globalPath?_paths t r]
  cases t.node? id with
  | none => exact ⟨.nothing, fun p => rfl⟩
  | some n =>
    dsimp only
    split
    · exact ⟨.nothing, fun p => rfl⟩
    · cases (Checker.mk t r ⟨[]⟩).globalPath? id id with
      | none => exact ⟨.nothing, fun p => rfl⟩
      | some found => exact ⟨.access found.text n.start n.stop, fun p => rfl⟩

theorem checkDeclaration?_asks (id : Child) :
    ∃ question : Question, ∀ p, (Checker.mk t r p).checkDeclaration? id = question.answer? p := by
  simp only [checkDeclaration?, globalPath?_paths t r]
  cases t.node? id with
  | none => exact ⟨.nothing, fun p => rfl⟩
  | some n =>
    dsimp only
    split
    · next name initializer record =>
      split
      · next elements kind pattern =>
        cases (Checker.mk t r ⟨[]⟩).globalPath? (some initializer) id with
        | none => exact ⟨.nothing, fun p => rfl⟩
        | some found =>
          obtain ⟨kind, taken, asks⟩ := checkPattern?_asks t r found.text _ elements.nodes
          refine ⟨.declaration kind taken n.start n.stop, fun p => ?_⟩
          rw [Option.bind_some, asks, Option.map_map]
          rfl
      · exact ⟨.nothing, fun p => rfl⟩
    · exact ⟨.nothing, fun p => rfl⟩

theorem checkNode?_asks (id : NodeId) :
    ∃ question : Question, ∀ p, (Checker.mk t r p).checkNode? id = question.answer? p := by
  unfold checkNode?
  dsimp only
  cases t.node? (some id) with
  | none => exact ⟨.nothing, fun p => rfl⟩
  | some n =>
    dsimp only
    split
    · exact checkAccess?_asks t r (some id)
    · split
      · exact checkDeclaration?_asks t r (some id)
      · exact ⟨.nothing, fun p => rfl⟩

end Checker

theorem ParsedFile.Sound.asks {f : ParsedFile} (sound : f.Sound) :
    ∃ questions : List Question, ∀ p : ProtectedPaths, p.isEmpty = false →
      (f.checker p).firstViolation? f.root = questions.findSome? (·.answer? p) := by
  obtain ⟨root, n, hroot, node, -⟩ := sound.root
  choose question asks using Checker.checkNode?_asks f.tree (f.scopes.resolver f.tree)
  refine ⟨(f.tree.preorder root).map question, fun p some_ => ?_⟩
  have first := Checker.firstViolation?_eq (c := f.checker p) sound.tree some_
    (Tree.lt_size_of_node node)
  have each : (f.checker p).checkNode? = fun i => (question i).answer? p := funext fun i => asks i p
  rw [hroot, first, each, List.findSome?_map]
  rfl

variable {p q : ProtectedPaths}

theorem checkText_isEmpty (nothing : p.isEmpty = true) (file source : String) :
    checkText p file source = none := by
  rw [checkText, if_pos nothing]

theorem checkText_asks (file source : String) :
    (∃ d, ∀ p : ProtectedPaths, p.isEmpty = false → checkText p file source = some d) ∨
      ∃ questions : List Question, ∀ p : ProtectedPaths, p.isEmpty = false →
        checkText p file source = (questions.findSome? (·.answer? p)).map (·.diagnostic file) := by
  obtain ⟨questions, asks⟩ := (parseFile_sound file source).asks
  cases problems : (parseFile file source).problems with
  | cons problem others =>
    refine .inl ⟨problem.diagnostic file, fun p some_ => ?_⟩
    rw [checkText, some_, if_neg Bool.false_ne_true]
    simp only [problems]
  | nil =>
    refine .inr ⟨questions, fun p some_ => ?_⟩
    rw [checkText, some_, if_neg Bool.false_ne_true]
    simp only [problems, asks p some_]

theorem checkText_same (h : p.Same q) (file source : String) :
    checkText p file source = checkText q file source := by
  cases some_ : p.isEmpty with
  | true =>
    rw [checkText_isEmpty some_, checkText_isEmpty (h.isEmpty ▸ some_)]
  | false =>
    have some' := h.within.isEmpty some_
    obtain ⟨d, fails⟩ | ⟨questions, asks⟩ := checkText_asks file source
    · rw [fails p some_, fails q some']
    · rw [asks p some_, asks q some', Question.answer?_same h]

theorem checkText_isSome_of_within (h : p.Within q) (file source : String)
    (found : (checkText p file source).isSome = true) :
    (checkText q file source).isSome = true := by
  cases some_ : p.isEmpty with
  | true =>
    rw [checkText_isEmpty some_] at found
    cases found
  | false =>
    have some' := h.isEmpty some_
    obtain ⟨d, fails⟩ | ⟨questions, asks⟩ := checkText_asks file source
    · rw [fails q some']
      rfl
    · rw [asks p some_, Option.isSome_map, List.findSome?_isSome_iff] at found
      obtain ⟨question, member, answered⟩ := found
      rw [asks q some', Option.isSome_map, List.findSome?_isSome_iff]
      exact ⟨question, member, question.answer?_isSome h answered⟩

/-- What is wrong with a text depends only on which paths the options protect, and when they protect
more, a text that was wrong stays so. -/
theorem checkSource_of_protects (o o' : Options) (file source : String) :
    ((∀ path, o.Protects path ↔ o'.Protects path) →
      checkSource o file source = checkSource o' file source) ∧
    ((∀ path, o.Protects path → o'.Protects path) →
      (checkSource o file source).isSome = true → (checkSource o' file source).isSome = true) := by
  constructor
  · intro same
    apply checkText_same
    intro path
    rw [Options.mem_protectedPaths, Options.mem_protectedPaths]
    exact same path
  · intro more
    apply checkText_isSome_of_within
    intro path member
    exact Options.mem_protectedPaths.2 (more path (Options.mem_protectedPaths.1 member))

/-- Neither the order of the entries nor a blank one nor a second one changes the answer, and a
further path keeps `a?.b;` wrong. -/
theorem checkSource_of_protects_entries :
    let o : Options := ⟨some ["a", "b.c"]⟩
    let reordered : Options := ⟨some ["b.c", " ", "a", "b.c"]⟩
    let longer : Options := ⟨some ["a.b", "b.c", "a"]⟩
    checkSource o "link.ts" "a?.b;" = checkSource reordered "link.ts" "a?.b;" ∧
      (checkSource o "link.ts" "a?.b;").isSome = true ∧
      (checkSource longer "link.ts" "a?.b;").isSome = true := by
  intro o reordered longer
  have same (path : String) : o.Protects path ↔ reordered.Protects path := by
    apply and_congr_left
    intro notBlank
    have noSpace : path ≠ " " := by
      rintro rfl
      exact absurd notBlank (by decide)
    simp only [o, reordered, Options.entries, Option.getD_some, List.mem_cons, List.not_mem_nil,
      noSpace]
    grind
  have more (path : String) (isProtected : o.Protects path) : longer.Protects path := by
    apply And.intro _ isProtected.2
    have member : path ∈ ["a", "b.c"] := isProtected.1
    simp only [List.mem_cons, List.not_mem_nil, or_false] at member
    rcases member with rfl | rfl <;> decide
  have wrong : (checkSource o "link.ts" "a?.b;").isSome = true := by decide +kernel
  exact ⟨(checkSource_of_protects o reordered _ _).1 same, wrong,
    (checkSource_of_protects o longer _ _).2 more wrong⟩

end PathGuard
