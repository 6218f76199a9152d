import PathGuard.Proofs.Access.Path
import PathGuard.Proofs.Grammar.Program
import PathGuard.Proofs.Rule.Destructured
import PathGuard.Proofs.Rule.Protected
import PathGuard.Proofs.Scope.Lookup
/-!
# Accesses in optional chains

When the check of an access in an optional chain finds a violation: the access is written with `?.`
or hangs on one that is, it denotes a protected path or one that descends from it, the path starts
at a global, and no declaration takes properties out of the access.
-/

namespace PathGuard

def ProtectedPaths.Covers (p : ProtectedPaths) (path : String) : Prop :=
  ∃ q ∈ p.paths, path = q ∨ ∃ rest, path = q ++ "." ++ rest

theorem ProtectedPaths.match?_isSome_iff {p : ProtectedPaths} {path : String} :
    (p.match? path).isSome = true ↔ p.Covers path := by
  rw [match?_isSome]
  constructor
  · rintro ⟨q, hq, descends⟩
    exact ⟨q, hq, descendsFrom_iff.1 descends⟩
  · rintro ⟨q, hq, goesOn⟩
    exact ⟨q, hq, descendsFrom_iff.2 goesOn⟩

/-- Whether the name that a path starts at, if it starts at one, is bound by no scope around a
node. -/
def Scopes.LeavesFree (s : Scopes) (t : Tree) (base : PathBase) (place : NodeId) : Prop :=
  ∀ id name, base = .identifier id → t.identifierText? (some id) = some name →
    ∀ start, s.enclosing? t (some place) = some start → ¬s.Binds start name

namespace Tree

variable {t : Tree}

theorem Denotes.base_text {count i : Nat} {segments : List String} {id : NodeId}
    {base : PathBase} (h : t.Denotes count i segments base) (starts : base = .identifier id) :
    ∃ name, t.identifierText? (some id) = some name := by
  induction h with
  | @name i n text node kind record =>
    cases starts
    exact ⟨text, by simp [identifierText?, recordAt?_of_node node, record]⟩
  | metaProperty node kind record first second => cases starts
  | parenthesized node kind record inner ih => exact ih starts
  | access node access record static inner ih => exact ih starts

end Tree

theorem startsGlobal_iff {s : Scopes} {t : Tree} (short : s.ChainsWithin maxScopeSteps)
    {count i place : Nat} {segments : List String} {p : AccessPath}
    (h : t.Denotes count i segments p.base) :
    p.startsGlobal t (s.resolver t) (some place) = true ↔ s.LeavesFree t p.base place := by
  unfold AccessPath.startsGlobal Scopes.LeavesFree
  cases base : p.base with
  | metaProperty => simp
  | identifier id =>
    obtain ⟨name, text⟩ := h.base_text base
    simp only [isGlobal, text, decide_eq_true_eq]
    rw [Scopes.resolver_unbound short]
    constructor
    · intro free id' name' same text' start enclosing
      cases same
      rw [text, Option.some.injEq] at text'
      exact text' ▸ free start enclosing
    · intro free start enclosing
      exact free id name rfl text start enclosing

/-- Whether an access denotes, within the bound of paths, one that is protected and starts at a
global. -/
def Checker.UsesProtected (t : Tree) (s : Scopes) (paths : ProtectedPaths) (i : NodeId) : Prop :=
  ∃ count ≤ maxPathNodes, ∃ segments base, t.Denotes count i segments base ∧
    paths.Covers (".".intercalate segments) ∧ s.LeavesFree t base i

theorem globalPath?_match {t : Tree} {s : Scopes} (short : s.ChainsWithin maxScopeSteps)
    {paths : ProtectedPaths} {i : NodeId} :
    (((Checker.mk t (s.resolver t) paths).globalPath? (some i) (some i)).bind
      fun p => paths.match? p.text).isSome = true ↔ Checker.UsesProtected t s paths i := by
  unfold Checker.globalPath? Checker.UsesProtected
  constructor
  · intro h
    cases found : t.path? (some i) with
    | none => simp [found] at h
    | some p =>
      obtain ⟨count, low, inner⟩ := Tree.path?_eq_some.1 ⟨p.isOptional, found⟩
      simp only [found, Option.filter_some] at h
      split at h
      · next global =>
        rw [startsGlobal_iff short inner] at global
        exact ⟨count, low, p.segments, p.base, inner, ProtectedPaths.match?_isSome_iff.1 h, global⟩
      · cases h
  · rintro ⟨count, low, segments, base, inner, covers, global⟩
    obtain ⟨isOptional, found⟩ := Tree.path?_eq_some.2 ⟨count, low, inner⟩
    have starts := (startsGlobal_iff (p := ⟨segments, base, isOptional⟩) short inner).2 global
    simp only [found, Option.filter_some, starts, if_true, Option.bind_some]
    exact ProtectedPaths.match?_isSome_iff.2 covers

theorem Checker.checkAccess?_isSome {t : Tree} {s : Scopes} (sound : t.Sound)
    (short : s.ChainsWithin maxScopeSteps) {paths : ProtectedPaths} {i : NodeId} :
    ((Checker.mk t (s.resolver t) paths).checkAccess? (some i)).isSome = true ↔
      t.OptionalFrom i ∧ Checker.UsesProtected t s paths i ∧ ¬t.Destructured i := by
  have uses : (((Checker.mk t (s.resolver t) paths).globalPath? (some i) (some i)).bind
      fun p => paths.match? p.text).isSome = true ↔ UsesProtected t s paths i :=
    globalPath?_match short
  unfold Checker.checkAccess?
  cases hn : t.nodes[i]? with
  | none =>
    have nowhere : ¬t.OptionalFrom i := by
      intro optional
      cases optional with
      | here node => simp [hn] at node
      | inner node => simp [hn] at node
    simp [Tree.node?_some, hn, nowhere]
  | some n =>
    have answer {α β : Type} (skipped : Bool) (f : α → β) (found : Option α) :
        (if skipped then none else found.map f).isSome = true ↔
          skipped = false ∧ found.isSome = true := by
      cases skipped <;> simp
    have asked : (!n.isOptionalAccess || t.isDestructured (some i)) = false ↔
        n.isOptionalAccess = true ∧ ¬t.Destructured i := by
      rw [← Tree.isDestructured_iff sound, Bool.or_eq_false_iff, Bool.not_eq_false',
        Bool.not_eq_true]
    simp only [Tree.node?_some, hn]
    rw [answer, asked, uses]
    constructor
    · rintro ⟨⟨optional, whole⟩, used⟩
      obtain ⟨count, -, segments, base, inner, -⟩ := id used
      rw [Node.isOptionalAccess, Bool.and_eq_true] at optional
      exact ⟨(sound.optionalFrom_iff inner hn).2 optional.2, used, whole⟩
    · rintro ⟨optional, used, whole⟩
      obtain ⟨count, -, segments, base, inner, -⟩ := id used
      have flagged := (sound.optionalFrom_iff inner hn).1 optional
      refine ⟨⟨?_, whole⟩, used⟩
      rw [Node.isOptionalAccess, optional.access hn, flagged]
      rfl

/-- When the check of a node in a parsed text finds an access in an optional chain: exactly when
the access hangs on a `?.`, uses a protected path, and is not what a declaration takes properties
out of. -/
theorem checkAccess?_isSome_iff (fileName source : String) (paths : ProtectedPaths) (i : NodeId)
    (short : (Scopes.ofTree (parseFile fileName source).tree
      (parseFile fileName source).root).ChainsWithin maxScopeSteps) :
    let file := parseFile fileName source
    let scopes := Scopes.ofTree file.tree file.root
    ((Checker.mk file.tree (scopes.resolver file.tree) paths).checkAccess? (some i)).isSome = true ↔
      file.tree.OptionalFrom i ∧ Checker.UsesProtected file.tree scopes paths i ∧
        ¬file.tree.Destructured i :=
  Checker.checkAccess?_isSome (parseFile_sound fileName source).tree short

theorem checkAccess?_single_link :
    let file := parseFile "link.ts" "a?.b;"
    let scopes := Scopes.ofTree file.tree file.root
    scopes.ChainsWithin maxScopeSteps ∧
      file.tree.OptionalFrom 2 ∧ Checker.UsesProtected file.tree scopes ⟨["a"]⟩ 2 ∧
        ¬file.tree.Destructured 2 := by
  intro file scopes
  have outermost : scopes.scopes.map Scope.parent = #[none] := by decide +kernel
  have short : scopes.ChainsWithin maxScopeSteps := by
    intro start count id above
    cases above with
    | self => decide
    | outward scope parent =>
      have there := congrArg (·[start]?) outermost
      simp only [Scopes.scope?] at scope
      simp only [Array.getElem?_map, scope, Option.map_some, parent] at there
      cases start <;> cases there
  refine ⟨short, (checkAccess?_isSome_iff "link.ts" "a?.b;" ⟨["a"]⟩ 2 short).1 ?_⟩
  decide +kernel

end PathGuard
