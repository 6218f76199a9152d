import Mathlib.Data.List.Induction
import PathGuard.Access.Path
import PathGuard.Proofs.Tree.Family
/-!
# What an expression denotes

An expression denotes a path when accesses whose keys the text tells, and parentheses, lead from it
to a name or a meta property. The walk that computes paths finds just these, as long as it passes
no more nodes than it may; and on such a chain the marks of the parser tell where a `?.` stands.
-/

namespace PathGuard

theorem AccessPath.shown_eq_text (p : AccessPath) : p.shown = p.text := by
  unfold AccessPath.shown AccessPath.text
  induction p.segments using List.reverseRecOn with
  | nil => rfl
  | append_singleton segments segment ih =>
    rw [List.zipIdx_append, List.foldl_append, ih]
    cases segments with
    | nil => simp
    | cons first segments =>
      rw [String.intercalate_append_of_ne_nil (List.cons_ne_nil _ _) (List.cons_ne_nil _ _),
        String.intercalate_singleton]
      simp

namespace Tree

/-- Whether a chain that passes `count` nodes, the node `i` first and its start included, denotes
some segments and starts at `base`. -/
inductive Denotes (t : Tree) : (count : Nat) → (i : Nat) → List String → PathBase → Prop where
  | name {i : Nat} {n : Node} {text : String} (node : t.nodes[i]? = some n)
      (kind : n.kind = .token .identifier) (record : t.record? n = some (.identifier text)) :
      Denotes t 1 i [text] (.identifier i)
  | metaProperty {i : Nat} {n : Node} {keyword : NodeKind} {name : Child} {first second : String}
      (node : t.nodes[i]? = some n) (kind : n.kind = .metaProperty)
      (record : t.record? n = some (.metaProperty keyword name))
      (first_ : metaSegment? keyword = some first) (second_ : t.identifierText? name = some second) :
      Denotes t 1 i [first, second] .metaProperty
  | parenthesized {i e count : Nat} {n : Node} {segments : List String} {base : PathBase}
      (node : t.nodes[i]? = some n) (kind : n.kind = .parenthesized)
      (record : t.record? n = some (.parenthesized (some e)))
      (inner : Denotes t count e segments base) : Denotes t (count + 1) i segments base
  | access {i e count : Nat} {n : Node} {key : Child} {questionDot : Bool} {segment : String}
      {segments : List String} {base : PathBase} (node : t.nodes[i]? = some n)
      (access : n.isAccess = true)
      (record : t.record? n = some (.access (some e) key questionDot))
      (static : t.staticKey? n.kind key = some segment)
      (inner : Denotes t count e segments base) : Denotes t (count + 1) i (segments ++ [segment]) base

variable {t : Tree}

theorem isAccess_iff {n : Node} :
    n.isAccess = true ↔ n.kind = .propertyAccess ∨ n.kind = .elementAccess := by
  simp [Node.isAccess]

theorem pathWithin_access {i : Nat} {n : Node} {expression key : Child} {questionDot : Bool}
    (node : t.nodes[i]? = some n) (access : n.isAccess = true)
    (record : t.record? n = some (.access expression key questionDot)) (fuel : Nat)
    (behind : List String) (isOptional : Bool) :
    t.pathWithin (fuel + 1) behind isOptional (some i) =
      (t.staticKey? n.kind key).bind fun segment =>
        t.pathWithin fuel (segment :: behind) (isOptional || questionDot) expression := by
  rcases isAccess_iff.1 access with kind | kind
  · simp [Tree.pathWithin, node?_some, node, kind, record]
  · simp [Tree.pathWithin, node?_some, node, kind, record]

theorem Denotes.pathWithin {count i : Nat} {segments : List String} {base : PathBase}
    (h : t.Denotes count i segments base) {fuel : Nat} (enough : count ≤ fuel)
    (behind : List String) (isOptional : Bool) :
    ∃ found, t.pathWithin fuel behind isOptional (some i) =
      some ⟨segments ++ behind, base, found⟩ := by
  induction h generalizing fuel behind isOptional with
  | name node kind record =>
    obtain ⟨fuel, rfl⟩ := Nat.exists_eq_add_of_le' enough
    exact ⟨isOptional, by simp [Tree.pathWithin, node?_some, node, kind, record]⟩
  | metaProperty node kind record first second =>
    obtain ⟨fuel, rfl⟩ := Nat.exists_eq_add_of_le' enough
    exact ⟨isOptional, by simp [Tree.pathWithin, node?_some, node, kind, record, first, second]⟩
  | parenthesized node kind record inner ih =>
    cases fuel with
    | zero => omega
    | succ fuel =>
      obtain ⟨found, h⟩ := ih (Nat.le_of_succ_le_succ enough) behind isOptional
      exact ⟨found, by simp [Tree.pathWithin, node?_some, node, kind, record, h]⟩
  | @access i e count n key questionDot segment _ _ node access record static inner ih =>
    cases fuel with
    | zero => omega
    | succ fuel =>
      obtain ⟨found, h⟩ := ih (Nat.le_of_succ_le_succ enough) (segment :: behind)
        (isOptional || questionDot)
      refine ⟨found, ?_⟩
      rw [pathWithin_access node access record, static, Option.bind_some, h, List.append_assoc]
      rfl

theorem denotes_of_pathWithin {fuel : Nat} {behind : List String} {isOptional : Bool} {id : Child}
    {p : AccessPath} (h : t.pathWithin fuel behind isOptional id = some p) :
    ∃ i count segments, id = some i ∧ count ≤ fuel ∧ t.Denotes count i segments p.base ∧
      p.segments = segments ++ behind := by
  induction fuel generalizing behind isOptional id with
  | zero => cases h
  | succ fuel ih =>
    -- accesses with a dot and with brackets differ in their kind alone
    have link {i : Nat} {n : Node} {e key : Child} {questionDot : Bool}
        (hn : t.nodes[i]? = some n) (access : n.isAccess = true)
        (record : t.record? n = some (.access e key questionDot))
        (h : ((t.staticKey? n.kind key).bind fun segment =>
          t.pathWithin fuel (segment :: behind) (isOptional || questionDot) e) = some p) :
        ∃ j count segments, some i = some j ∧ count ≤ fuel + 1 ∧ t.Denotes count j segments p.base ∧
          p.segments = segments ++ behind := by
      obtain ⟨segment, static, rest⟩ := Option.bind_eq_some_iff.1 h
      obtain ⟨e', count, segments, rfl, low, inner, same⟩ := ih rest
      exact ⟨i, _, _, rfl, Nat.succ_le_succ low, .access hn access record static inner,
        by simp [same]⟩
    cases id with
    | none => cases h
    | some i =>
      unfold Tree.pathWithin at h
      cases hn : t.nodes[i]? with
      | none => simp [node?_some, hn] at h
      | some n =>
        simp only [node?_some, hn] at h
        split at h
        · next e key questionDot kind record =>
          exact link hn (isAccess_iff.2 (.inl kind)) record h
        · next e key questionDot kind record =>
          exact link hn (isAccess_iff.2 (.inr kind)) record h
        · next e kind record =>
          obtain ⟨e', count, segments, rfl, low, inner, same⟩ := ih h
          exact ⟨i, _, _, rfl, Nat.succ_le_succ low, .parenthesized hn kind record inner, same⟩
        · next name kind record =>
          cases h
          exact ⟨i, _, _, rfl, by omega, .name hn kind record, rfl⟩
        · next keyword name kind record =>
          split at h
          · next first second first_ second_ =>
            cases h
            exact ⟨i, _, _, rfl, by omega, .metaProperty hn kind record first_ second_, rfl⟩
          · cases h
        · cases h

/-- An expression has a path when it denotes one within the bound, and then it is that one. -/
theorem path?_eq_some {i : Nat} {segments : List String} {base : PathBase} :
    (∃ isOptional, t.path? (some i) = some ⟨segments, base, isOptional⟩) ↔
      ∃ count ≤ maxPathNodes, t.Denotes count i segments base := by
  constructor
  · rintro ⟨isOptional, h⟩
    obtain ⟨i', count, found, same, low, inner, all⟩ := denotes_of_pathWithin h
    rw [Option.some.injEq] at same
    rw [List.append_nil] at all
    subst same all
    exact ⟨count, low, inner⟩
  · rintro ⟨count, low, inner⟩
    obtain ⟨isOptional, h⟩ := inner.pathWithin low [] false
    rw [List.append_nil] at h
    exact ⟨isOptional, h⟩

/-! ### Optional chains -/

/-- Whether an access, or one that it reaches through accesses alone, is written with `?.`. -/
inductive OptionalFrom (t : Tree) : Nat → Prop where
  | here {i : Nat} {n : Node} {expression key : Child} (node : t.nodes[i]? = some n)
      (access : n.isAccess = true) (record : t.record? n = some (.access expression key true)) :
      OptionalFrom t i
  | inner {i e : Nat} {n : Node} {key : Child} {questionDot : Bool} (node : t.nodes[i]? = some n)
      (access : n.isAccess = true)
      (record : t.record? n = some (.access (some e) key questionDot))
      (inner : OptionalFrom t e) : OptionalFrom t i

theorem OptionalFrom.access {i : Nat} (h : t.OptionalFrom i) {n : Node}
    (hn : t.nodes[i]? = some n) : n.isAccess = true := by
  cases h with
  | here node access record =>
    rw [hn, Option.some.injEq] at node
    exact node ▸ access
  | inner node access record inner =>
    rw [hn, Option.some.injEq] at node
    exact node ▸ access

theorem hasFlag_chainMark {n : Node} {isOptional : Bool} (h : n.flags = chainMark isOptional) :
    n.hasFlag NodeFlag.optionalChain = isOptional := by
  rw [Node.hasFlag, h]
  cases isOptional <;> rfl

theorem Sound.optionalFrom_iff (sound : t.Sound) {count i : Nat} {segments : List String}
    {base : PathBase} (h : t.Denotes count i segments base) {n : Node}
    (hn : t.nodes[i]? = some n) :
    t.OptionalFrom i ↔ n.hasFlag NodeFlag.optionalChain = true := by
  -- what is no access hangs on no link, and carries no mark
  have plain {i : Nat} {n : Node} (hn : t.nodes[i]? = some n) (other : n.isAccess = false)
      (flags : n.flags = chainMark false) :
      t.OptionalFrom i ↔ n.hasFlag NodeFlag.optionalChain = true := by
    rw [hasFlag_chainMark flags]
    constructor
    · intro optional
      rw [optional.access hn] at other
      cases other
    · intro no
      cases no
  induction h generalizing n with
  | name node kind record =>
    rw [hn, Option.some.injEq] at node
    subst node
    exact plain hn (by simp [Node.isAccess, kind])
      (sound.construct_of_record hn record).layout.marked
  | metaProperty node kind record first second =>
    rw [hn, Option.some.injEq] at node
    subst node
    exact plain hn (by simp [Node.isAccess, kind])
      (sound.construct_of_record hn record).layout.marked
  | parenthesized node kind record inner ih =>
    rw [hn, Option.some.injEq] at node
    subst node
    exact plain hn (by simp [Node.isAccess, kind])
      (sound.construct_of_record hn record).layout.marked
  | @access i e count m key questionDot segment _ _ node access record static inner ih =>
    rw [hn, Option.some.injEq] at node
    subst node
    have construct := sound.construct_of_record hn record
    obtain ⟨object, there⟩ := construct.there e (List.mem_cons_self ..)
    have marked : n.flags = chainMark (questionDot || t.chained (some e)) := construct.layout.marked
    have known : object.hasFlag NodeFlag.optionalChain = true ↔ t.OptionalFrom e :=
      (ih there).symm
    rw [hasFlag_chainMark marked, Bool.or_eq_true, chained_of_node there, known]
    constructor
    · intro optional
      cases optional with
      | here node' _ record' =>
        rw [hn, Option.some.injEq] at node'
        rw [← node', record] at record'
        cases record'
        exact .inl rfl
      | inner node' _ record' inner =>
        rw [hn, Option.some.injEq] at node'
        rw [← node', record] at record'
        cases record'
        exact .inr inner
    · rintro (here | inner)
      · exact .here hn access (here ▸ record)
      · exact .inner hn access record inner

end Tree

end PathGuard
