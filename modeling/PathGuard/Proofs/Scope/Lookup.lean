import PathGuard.Access.Global
import PathGuard.Proofs.Scope.Run
import Std.Data.TreeMap.Lemmas
/-!
# Looking names up

A name is looked up in a scope and in those around it. It is found when one of them has it, as long
as it is not further away than the walk goes; otherwise it means a global. So a name that nothing in
a text declares means a global everywhere.
-/

namespace PathGuard

namespace Scopes

inductive Above (s : Scopes) : ScopeId → (count : Nat) → ScopeId → Prop where
  | self {id : ScopeId} : Above s id 0 id
  | outward {id outer top : ScopeId} {count : Nat} {scope : Scope} (scope_ : s.scope? id = some scope)
      (parent : scope.parent = some outer) (rest : Above s outer count top) :
      Above s id (count + 1) top

def Binds (s : Scopes) (start : ScopeId) (name : String) : Prop :=
  ∃ count id scope, s.Above start count id ∧ s.scope? id = some scope ∧ name ∈ scope.table

/-- Whether no chain of scopes has more than `limit` scopes. -/
def ChainsWithin (s : Scopes) (limit : Nat) : Prop :=
  ∀ start count id, s.Above start count id → count < limit

variable {s : Scopes} {name : String}

theorem lookupWithin_isSome {fuel : Nat} {start : ScopeId} :
    (s.lookupWithin name fuel (some start)).isSome = true ↔
      ∃ count id scope, count < fuel ∧ s.Above start count id ∧ s.scope? id = some scope ∧
        name ∈ scope.table := by
  induction fuel generalizing start with
  | zero => simp [lookupWithin]
  | succ fuel ih =>
    unfold lookupWithin
    cases found : s.scope? start with
    | none =>
      constructor
      · intro no
        cases no
      · rintro ⟨count, id, scope, low, above, there, has⟩
        cases above with
        | self => simp [found] at there
        | outward scope_ => simp [found] at scope_
    | some scope =>
      cases known : scope.table[name]? with
      | some symbol =>
        have has : name ∈ scope.table := by
          rw [Std.TreeMap.mem_iff_isSome_getElem?, known]
          rfl
        simp only [known, Option.isSome_some, true_iff]
        exact ⟨0, start, scope, Nat.succ_pos fuel, .self, found, has⟩
      | none =>
        have absent : name ∉ scope.table := by
          rw [Std.TreeMap.mem_iff_isSome_getElem?, known]
          simp
        simp only [known]
        constructor
        · intro later
          cases outer : scope.parent with
          | none =>
            rw [outer] at later
            cases fuel <;> cases later
          | some parent =>
            rw [outer, ih] at later
            obtain ⟨count, id, target, low, above, there, has⟩ := later
            exact ⟨count + 1, id, target, Nat.succ_lt_succ low, .outward found outer above, there,
              has⟩
        · rintro ⟨count, id, target, low, above, there, has⟩
          cases above with
          | self =>
            rw [found, Option.some.injEq] at there
            exact absurd (there ▸ has) absent
          | @outward _ parent _ count scope' scope_ outer rest =>
            rw [found, Option.some.injEq] at scope_
            subst scope_
            rw [outer, ih]
            exact ⟨count, id, target, Nat.lt_of_succ_lt_succ low, rest, there, has⟩

/-- Where no chain of scopes is too long, a name means a global just when no scope around binds
it. -/
theorem resolver_unbound {t : Tree} (short : s.ChainsWithin maxScopeSteps) {place : Child} :
    s.resolver t name place = .unbound ↔
      ∀ start, s.enclosing? t place = some start → ¬s.Binds start name := by
  have unbound : s.resolver t name place = .unbound ↔ s.resolve? t name place = none := by
    unfold resolver
    cases s.resolve? t name place <;> simp
  rw [unbound, resolve?]
  cases s.enclosing? t place with
  | none => simp [lookupWithin]
  | some start =>
    rw [← Option.not_isSome_iff_eq_none, lookupWithin_isSome]
    constructor
    · rintro none_ start' same ⟨count, id, scope, above, there, has⟩
      rw [Option.some.injEq] at same
      subst same
      have := short _ _ _ above
      exact none_ ⟨count, id, scope, by omega, above, there, has⟩
    · rintro none_ ⟨count, id, scope, low, above, there, has⟩
      exact none_ start rfl ⟨count, id, scope, above, there, has⟩

end Scopes

/-! ### Names that nothing declares -/

namespace Tree

variable {t : Tree} {i : Nat} {names : List String}

def DeclaresOnly (t : Tree) (names : List String) (i : Nat) : Prop :=
  ∀ e x, e ∈ t.declarations i ∨ e ∈ t.innerDeclarations i →
    t.identifierText? (some e.name) = some x → x ∈ names

def OnlyBelow (t : Tree) (names : List String) (i : Nat) : Prop :=
  ∀ d, t.Below i d → t.DeclaresOnly names d

theorem Silent.declaresOnly (silent : t.Silent i) : t.DeclaresOnly names i := by
  intro e x he
  rw [silent.1, silent.2] at he
  rcases he with no | no <;> cases no

theorem SilentBelow.onlyBelow (silent : t.SilentBelow i) : t.OnlyBelow names i :=
  fun d below => (silent d below).declaresOnly

theorem onlyBelow_of_parts (own : t.DeclaresOnly names i)
    (parts : ∀ c ∈ t.children (some i), t.OnlyBelow names c) : t.OnlyBelow names i := by
  intro d below
  rcases below.cases_top with rfl | ⟨c, part, below⟩
  · exact own
  · exact parts c part d below

end Tree

namespace Scopes

theorem resolver_of_lacks {s : Scopes} {name : String} (lacks : ∀ c, ¬s.Has c name) (t : Tree)
    (place : Child) : s.resolver t name place = .unbound := by
  have nowhere : s.resolve? t name place = none := by
    rw [resolve?]
    cases s.enclosing? t place with
    | none => rfl
    | some start =>
      rw [← Option.not_isSome_iff_eq_none, lookupWithin_isSome]
      rintro ⟨count, id, scope, -, -, there, has⟩
      exact lacks scope.container ⟨id, scope, there, rfl, has⟩
  rw [resolver, nowhere]

/-- A name that is not declared means a global everywhere. -/
theorem resolver_of_undeclared {t : Tree} (sound : t.Sound) {root : Nat} {n : Node}
    (hn : t.nodes[root]? = some n) (file : n.kind = .sourceFile) {names : List String}
    (only : t.OnlyBelow names root) {name : String} (other : name ∉ names) (place : Child) :
    (ofTree t (some root)).resolver t name place = .unbound := by
  refine resolver_of_lacks (fun c has => ?_) t place
  obtain ⟨d, below, ⟨e, he, text, -⟩ | ⟨-, e, he, text⟩⟩ :=
    ((ofTree_spec sound hn file).2 c name).1 has
  · exact other (only d below e name (.inl he) text)
  · exact other (only d below e name (.inr he) text)

end Scopes

end PathGuard
