import PathGuard.Proofs.Access.Path
import PathGuard.Proofs.Grammar.Program
/-!
# Optional chains

The mark of an optional chain spreads from the link that is written with `?.` to all links behind it,
and to nothing else: parentheses and `new` end a chain. So an access with the mark that denotes a
path has a link with `?.` on the way to where the path starts.
-/

namespace PathGuard

namespace Tree

variable {t : Tree}

/-! ### Paths through marked links -/

theorem isOptional_of_pathWithin {fuel : Nat} {behind : List String} {id : Child} {p : AccessPath}
    (found : t.pathWithin fuel behind true id = some p) : p.isOptional = true := by
  induction fuel generalizing behind id with
  | zero => cases found
  | succ fuel ih =>
    cases id with
    | none => cases found
    | some i =>
      unfold Tree.pathWithin at found
      cases hn : t.nodes[i]? with
      | none => simp [node?_some, hn] at found
      | some n =>
        simp only [node?_some, hn] at found
        split at found
        · obtain ⟨segment, -, rest⟩ := Option.bind_eq_some_iff.1 found
          exact ih rest
        · obtain ⟨segment, -, rest⟩ := Option.bind_eq_some_iff.1 found
          exact ih rest
        · exact ih found
        · cases found
          rfl
        · split at found
          · cases found
            rfl
          · cases found
        · cases found

theorem OptionalFrom.isOptional {i : Nat} (h : t.OptionalFrom i) {fuel : Nat}
    {behind : List String} {isOptional : Bool} {p : AccessPath}
    (found : t.pathWithin fuel behind isOptional (some i) = some p) : p.isOptional = true := by
  induction h generalizing fuel behind isOptional with
  | here node access record =>
    cases fuel with
    | zero => cases found
    | succ fuel =>
      rw [pathWithin_access node access record] at found
      obtain ⟨segment, -, rest⟩ := Option.bind_eq_some_iff.1 found
      rw [Bool.or_true] at rest
      exact isOptional_of_pathWithin rest
  | inner node access record inner ih =>
    cases fuel with
    | zero => cases found
    | succ fuel =>
      rw [pathWithin_access node access record] at found
      obtain ⟨segment, -, rest⟩ := Option.bind_eq_some_iff.1 found
      exact ih rest

theorem Sound.path?_isOptional (sound : t.Sound) {i : Nat} {n : Node} {p : AccessPath}
    (hn : t.nodes[i]? = some n) (optional : n.isOptionalAccess = true)
    (found : t.path? (some i) = some p) : p.isOptional = true := by
  rw [Node.isOptionalAccess, Bool.and_eq_true] at optional
  obtain ⟨count, -, denotes⟩ := path?_eq_some.1 ⟨p.isOptional, found⟩
  exact ((sound.optionalFrom_iff denotes hn).2 optional.2).isOptional found

/-! ### How the mark spreads -/

/-- Whether the marks of optional chains spread just along chains. An access has the mark when it is
written with `?.` or what it is an access of has the mark; a template with a tag, when its tag has
it; and a call, when what is called has it. Nothing else ever has the mark, and a path that a marked
access denotes has a link with `?.`. -/
structure ChainsMarked (t : Tree) : Prop where
  access : ∀ {i : Nat} {n : Node}, t.nodes[i]? = some n →
    n.kind = .propertyAccess ∨ n.kind = .elementAccess →
      ∃ expression key questionDot, t.record? n = some (.access expression key questionDot) ∧
        (n.hasFlag NodeFlag.optionalChain = true ↔
          questionDot = true ∨ t.chained expression = true)
  taggedTemplate : ∀ {i : Nat} {n : Node}, t.nodes[i]? = some n → n.kind = .taggedTemplate →
    ∃ tag text, t.record? n = some (.taggedTemplate tag text) ∧
      (n.hasFlag NodeFlag.optionalChain = true ↔ t.chained tag = true)
  call : ∀ {i : Nat} {n : Node}, t.nodes[i]? = some n → n.kind = .callExpression →
    ∃ callee arguments, t.record? n = some (.call callee arguments) ∧
      (t.chained callee = true → n.hasFlag NodeFlag.optionalChain = true)
  only : ∀ {i : Nat} {n : Node}, t.nodes[i]? = some n →
    n.hasFlag NodeFlag.optionalChain = true →
      n.kind = .propertyAccess ∨ n.kind = .elementAccess ∨ n.kind = .taggedTemplate ∨
        n.kind = .callExpression
  path : ∀ {i : Nat} {n : Node} {p : AccessPath}, t.nodes[i]? = some n →
    n.isOptionalAccess = true → t.path? (some i) = some p → p.isOptional = true

theorem Layout.kind_of_chained {n : Node} {r : Record} (layout : t.Layout n.kind n.flags r)
    (flag : n.hasFlag NodeFlag.optionalChain = true) :
    n.kind = .propertyAccess ∨ n.kind = .elementAccess ∨ n.kind = .taggedTemplate ∨
      n.kind = .callExpression := by
  have plain (marked : n.flags = chainMark false) : False := by
    rw [hasFlag_chainMark marked] at flag
    cases flag
  have shape := layout.shape
  have marked := layout.marked
  cases r with
  | access expression key questionDot =>
    cases kind : n.kind with
    | propertyAccess => exact .inl rfl
    | elementAccess => exact .inr (.inl rfl)
    | token k =>
      rw [kind] at shape
      cases k <;> cases shape
    | _ =>
      rw [kind] at shape
      cases shape
  | taggedTemplate tag text =>
    cases kind : n.kind with
    | taggedTemplate => exact .inr (.inr (.inl rfl))
    | token k =>
      rw [kind] at shape
      cases k <;> cases shape
    | _ =>
      rw [kind] at shape
      cases shape
  | call callee arguments =>
    rcases marked with ⟨none_, -⟩ | ⟨-, kind⟩
    · exact (plain none_).elim
    · exact .inr (.inr (.inr kind))
  | variableList declarations =>
    have low : n.flags < 3 := marked
    have few : n.flags = 0 ∨ n.flags = 1 ∨ n.flags = 2 := by omega
    rw [Node.hasFlag] at flag
    rcases few with flags | flags | flags <;> rw [flags] at flag <;> cases flag
  | _ => exact (plain marked).elim

theorem Sound.chainsMarked (sound : t.Sound) : t.ChainsMarked where
  access := by
    intro i n hn kind
    have shape : n.kind.shape? = some .access := by
      rcases kind with kind | kind <;> rw [kind] <;> rfl
    obtain ⟨r, construct, same⟩ := sound.construct_of_shape hn shape
    cases r <;> cases same
    next expression key questionDot =>
      refine ⟨expression, key, questionDot, construct.record, ?_⟩
      rw [hasFlag_chainMark construct.layout.marked, Bool.or_eq_true]
  taggedTemplate := by
    intro i n hn kind
    have shape : n.kind.shape? = some .taggedTemplate := by rw [kind]; rfl
    obtain ⟨r, construct, same⟩ := sound.construct_of_shape hn shape
    cases r <;> cases same
    next tag text =>
      refine ⟨tag, text, construct.record, ?_⟩
      rw [hasFlag_chainMark construct.layout.marked]
  call := by
    intro i n hn kind
    have shape : n.kind.shape? = some .call := by rw [kind]; rfl
    obtain ⟨r, construct, same⟩ := sound.construct_of_shape hn shape
    cases r <;> cases same
    next callee arguments =>
      refine ⟨callee, arguments, construct.record, fun chained => ?_⟩
      rcases construct.layout.marked with ⟨-, new | none_⟩ | ⟨mark, -⟩
      · rw [kind] at new
        cases new
      · rw [chained] at none_
        cases none_
      · exact hasFlag_chainMark mark
  only := by
    intro i n hn flag
    rcases sound.formed hn with bare | ⟨r, construct⟩
    · rw [Node.hasFlag, bare.flags] at flag
      cases flag
    · exact construct.layout.kind_of_chained flag
  path := sound.path?_isOptional

end Tree

/-- In every text, with or without syntax problems, the marks of optional chains spread just along
chains. -/
theorem parseFile_chainsMarked (fileName source : String) :
    (parseFile fileName source).tree.ChainsMarked :=
  (parseFile_sound fileName source).tree.chainsMarked

end PathGuard
