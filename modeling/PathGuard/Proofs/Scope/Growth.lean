import PathGuard.Scope.Build
import Std.Data.TreeMap.Lemmas
/-!
# How scopes grow

While a text is bound, scopes are added and names are added to scopes; nothing is taken away. What a
part of the binding adds is told by the nodes whose scopes are new and by the names that scopes get.
-/

namespace PathGuard.Scopes

def Has (s : Scopes) (container : NodeId) (name : String) : Prop :=
  ∃ id scope, s.scope? id = some scope ∧ scope.container = container ∧ name ∈ scope.table

def Once (s : Scopes) : Prop :=
  ∀ id id' scope scope', s.scope? id = some scope → s.scope? id' = some scope' →
    scope.container = scope'.container → id = id'

def Lacks (s : Scopes) (nodes : Nat → Prop) : Prop :=
  ∀ id scope, s.scope? id = some scope → ¬nodes scope.container

/-- Whether scopes come from earlier ones by adding scopes of some nodes and some names. -/
structure Grows (s s' : Scopes) (nodes : Nat → Prop) (names : Nat → String → Prop) : Prop where
  kept : ∀ id scope, s.scope? id = some scope →
    ∃ table, s'.scope? id = some { scope with table := table }
  made : ∀ id scope, s'.scope? id = some scope → nodes scope.container ∨
    ∃ scope', s.scope? id = some scope' ∧ scope'.container = scope.container
  once : s.Once → s'.Once
  has : ∀ c x, s'.Has c x ↔ s.Has c x ∨ names c x

/-- Whether, besides, the same scope is open as before. -/
structure Builds (s s' : Scopes) (nodes : Nat → Prop) (names : Nat → String → Prop) : Prop
    extends Grows s s' nodes names where
  current : s'.current = s.current

variable {s s' s'' : Scopes} {nodes nodes' : Nat → Prop} {names names' : Nat → String → Prop}

theorem Grows.trans (h : Grows s s' nodes names) (h' : Grows s' s'' nodes' names') :
    Grows s s'' (fun i => nodes i ∨ nodes' i) (fun c x => names c x ∨ names' c x) where
  kept := by
    intro id scope there
    obtain ⟨table, there'⟩ := h.kept id scope there
    obtain ⟨table', there''⟩ := h'.kept id _ there'
    exact ⟨table', there''⟩
  made := by
    intro id scope there
    rcases h'.made id scope there with new | ⟨scope', there', same⟩
    · exact .inl (.inr new)
    · rcases h.made id scope' there' with new | ⟨old, there'', same'⟩
      · exact .inl (.inl (same ▸ new))
      · exact .inr ⟨old, there'', same'.trans same⟩
  once := fun once => h'.once (h.once once)
  has := fun c x => by rw [h'.has, h.has, or_assoc]

theorem Builds.trans (h : Builds s s' nodes names) (h' : Builds s' s'' nodes' names') :
    Builds s s'' (fun i => nodes i ∨ nodes' i) (fun c x => names c x ∨ names' c x) where
  toGrows := h.toGrows.trans h'.toGrows
  current := h'.current.trans h.current

theorem Grows.refl (s : Scopes) : Grows s s (fun _ => False) (fun _ _ => False) where
  kept := fun _ scope there => ⟨scope.table, there⟩
  made := fun _ scope there => .inr ⟨scope, there, rfl⟩
  once := id
  has := fun c x => by rw [or_false]

theorem Builds.refl (s : Scopes) : Builds s s (fun _ => False) (fun _ _ => False) where
  toGrows := .refl s
  current := rfl

theorem Grows.imp (h : Grows s s' nodes names) (more : ∀ i, nodes i → nodes' i)
    (same : ∀ c x, names c x ↔ names' c x) : Grows s s' nodes' names' where
  kept := h.kept
  made := fun id scope there => (h.made id scope there).imp_left (more _)
  once := h.once
  has := fun c x => by rw [h.has, same]

theorem Builds.imp (h : Builds s s' nodes names) (more : ∀ i, nodes i → nodes' i)
    (same : ∀ c x, names c x ↔ names' c x) : Builds s s' nodes' names' where
  toGrows := h.toGrows.imp more same
  current := h.current

theorem Grows.lacks (h : Grows s s' nodes names) (lacks : s.Lacks nodes')
    (apart : ∀ i, nodes i → ¬nodes' i) : s'.Lacks nodes' := by
  intro id scope there
  rcases h.made id scope there with new | ⟨old, there', same⟩
  · exact apart _ new
  · exact same ▸ lacks id old there'

/-! ### Opening and closing -/

theorem scope?_enter (s : Scopes) (kind : ScopeKind) (i : NodeId) (id : ScopeId) :
    (s.enter kind i).scope? id =
      if id = s.scopes.size then some ⟨s.current, kind, i, ∅⟩ else s.scope? id :=
  Array.getElem?_push

theorem scope?_lt {id : ScopeId} {scope : Scope} (there : s.scope? id = some scope) :
    id < s.scopes.size := (Array.getElem?_eq_some_iff.1 there).1

theorem grows_enter (s : Scopes) (kind : ScopeKind) {i : NodeId} (new : s.Lacks (· = i)) :
    Grows s (s.enter kind i) (· = i) (fun _ _ => False) where
  kept := by
    intro id scope there
    have low := scope?_lt there
    exact ⟨scope.table, by rw [scope?_enter, if_neg (Nat.ne_of_lt low), there]⟩
  made := by
    intro id scope there
    rw [scope?_enter] at there
    split at there
    · rw [Option.some.injEq] at there
      exact .inl (there ▸ rfl)
    · exact .inr ⟨scope, there, rfl⟩
  once := by
    intro once id id' scope scope' there there' same
    rw [scope?_enter] at there there'
    split at there <;> split at there'
    · next last last' => exact last.trans last'.symm
    · rw [Option.some.injEq] at there
      exact absurd (same ▸ there ▸ rfl) (new id' scope' there')
    · rw [Option.some.injEq] at there'
      exact absurd (same.trans (there' ▸ rfl)) (new id scope there)
    · exact once id id' scope scope' there there' same
  has := by
    intro c x
    rw [or_false]
    constructor
    · rintro ⟨id, scope, there, same, has⟩
      rw [scope?_enter] at there
      split at there
      · rw [Option.some.injEq] at there
        rw [← there] at has
        exact absurd has Std.TreeMap.not_mem_emptyc
      · exact ⟨id, scope, there, same, has⟩
    · rintro ⟨id, scope, there, same, has⟩
      have low := scope?_lt there
      exact ⟨id, scope, by rw [scope?_enter, if_neg (Nat.ne_of_lt low), there], same, has⟩

theorem Grows.of_scopes (same : s'.scopes = s.scopes) :
    Grows s s' (fun _ => False) (fun _ _ => False) := by
  have same (id : ScopeId) : s'.scope? id = s.scope? id := congrArg (·[id]?) same
  exact {
    kept := fun id scope there => ⟨scope.table, (same id).trans there⟩
    made := fun id scope there => .inr ⟨scope, (same id).symm.trans there, rfl⟩
    once := fun once id id' scope scope' there there' =>
      once id id' scope scope' ((same id).symm.trans there) ((same id').symm.trans there')
    has := fun c x => by simp only [Has, same, or_false] }

theorem leave_scopes (s : Scopes) : s.leave.scopes = s.scopes := by
  unfold leave
  split
  · rfl
  · rfl

theorem leave_current {id : ScopeId} {scope : Scope} (current : s.current = some id)
    (there : s.scope? id = some scope) : s.leave.current = scope.parent := by
  unfold leave
  rw [current, Option.bind_some, there]

theorem builds_shareCurrent (s : Scopes) (i : NodeId) :
    Builds s (s.shareCurrent i) (fun _ => False) (fun _ _ => False) := by
  unfold shareCurrent
  split
  · exact ⟨.of_scopes rfl, rfl⟩
  · exact .refl s

/-! ### Declaring -/

theorem symbolFor_spec {id : ScopeId} {scope : Scope} (there : s.scope? id = some scope)
    (forms : Nat) (name : String) :
    (s.symbolFor id scope forms name).2.current = s.current ∧
      ∃ table : SymbolTable, (∀ x, x ∈ table ↔ x ∈ scope.table ∨ x = name) ∧
        ∀ id', (s.symbolFor id scope forms name).2.scope? id' =
          if id' = id then some { scope with table := table } else s.scope? id' := by
  unfold symbolFor
  split
  · next symbol known =>
    refine ⟨rfl, scope.table, fun x => ?_, fun id' => ?_⟩
    · have has : name ∈ scope.table := by
        rw [Std.TreeMap.mem_iff_isSome_getElem?, known]
        rfl
      constructor
      · exact .inl
      · rintro (old | rfl)
        · exact old
        · exact has
    · split
      · next same => rw [same, there]
      · rfl
  · refine ⟨rfl, scope.table.insert name s.symbols.symbols.size, fun x => ?_, fun id' => ?_⟩
    · rw [Std.TreeMap.mem_insert, Std.LawfulEqCmp.compare_eq_iff_eq, or_comm, eq_comm]
    · simp only [scope?, Array.getElem?_modify, SymbolStore.alloc]
      have old : s.scopes[id]? = some scope := there
      by_cases same : id' = id
      · rw [if_pos same.symm, if_pos same, same, old, Option.map_some]
      · rw [if_neg fun same' => same same'.symm, if_neg same]

theorem builds_declareIn {id : ScopeId} {scope : Scope} (there : s.scope? id = some scope)
    (form : DeclarationForm) (name : String) (node : NodeId) :
    Builds s (s.declareIn id form name node) (fun _ => False)
      (fun c x => c = scope.container ∧ x = name) := by
  obtain ⟨current, table, has, scopes⟩ := symbolFor_spec there form.bit name
  have declared (id' : ScopeId) : (s.declareIn id form name node).scope? id' =
      if id' = id then some { scope with table := table } else s.scope? id' := by
    rw [← scopes id']
    unfold declareIn
    rw [there]
    rfl
  have open_ : (s.declareIn id form name node).current = s.current := by
    rw [← current]
    unfold declareIn
    rw [there]
  -- each scope was there before, and only the one of the declaration has a name more
  have old (id' : ScopeId) (scope' : Scope)
      (there' : (s.declareIn id form name node).scope? id' = some scope') :
      ∃ old, s.scope? id' = some old ∧ old.container = scope'.container ∧
        ∀ x, x ∈ scope'.table ↔ x ∈ old.table ∨ id' = id ∧ x = name := by
    rw [declared] at there'
    split at there'
    · next same =>
      rw [Option.some.injEq] at there'
      subst there' same
      exact ⟨scope, there, rfl, fun x => by rw [has, eq_self, true_and]⟩
    · next other => exact ⟨scope', there', rfl, fun x => by simp [other]⟩
  exact {
    current := open_
    kept := by
      intro id' scope' there'
      rw [declared]
      split
      · next same =>
        rw [same, there, Option.some.injEq] at there'
        exact ⟨table, there' ▸ rfl⟩
      · exact ⟨scope'.table, there'⟩
    made := by
      intro id' scope' there'
      obtain ⟨scope'', there'', same, -⟩ := old id' scope' there'
      exact .inr ⟨scope'', there'', same⟩
    once := by
      intro once id' id'' scope' scope'' there' there'' same
      obtain ⟨old', was', same', -⟩ := old id' scope' there'
      obtain ⟨old'', was'', same'', -⟩ := old id'' scope'' there''
      exact once id' id'' old' old'' was' was'' (same'.trans (same.trans same''.symm))
    has := by
      intro c x
      constructor
      · rintro ⟨id', scope', there', rfl, inside⟩
        obtain ⟨old', was, same, names⟩ := old id' scope' there'
        rcases (names x).1 inside with before | ⟨rfl, new⟩
        · exact .inl ⟨id', old', was, same, before⟩
        · rw [there, Option.some.injEq] at was
          exact .inr ⟨was ▸ same.symm, new⟩
      · rintro (⟨id', scope', there', same, inside⟩ | ⟨rfl, rfl⟩)
        · by_cases here : id' = id
          · rw [here, there, Option.some.injEq] at there'
            subst there'
            exact ⟨id, { scope with table := table }, by rw [declared, if_pos rfl], same,
              (has x).2 (.inl inside)⟩
          · exact ⟨id', scope', by rw [declared, if_neg here, there'], same, inside⟩
        · exact ⟨id, { scope with table := table }, by rw [declared, if_pos rfl], rfl,
            (has x).2 (.inr rfl)⟩ }

/-! ### Where declarations go -/

/-- Whether `count` steps lead outwards from a scope to the first that holds hoisted variables. -/
inductive Rises (s : Scopes) : ScopeId → (count : Nat) → ScopeId → Prop where
  | here {id : ScopeId} {scope : Scope} (there : s.scope? id = some scope)
      (holds : scope.kind.holdsHoisted = true) : Rises s id 0 id
  | outward {id outer top : ScopeId} {count : Nat} {scope : Scope}
      (there : s.scope? id = some scope) (passes : scope.kind.holdsHoisted = false)
      (parent : scope.parent = some outer) (rest : Rises s outer count top) :
      Rises s id (count + 1) top

theorem Rises.of_grows {id top : ScopeId} {count : Nat} (rises : s.Rises id count top)
    (h : Grows s s' nodes names) : s'.Rises id count top := by
  induction rises with
  | here there holds =>
    obtain ⟨table, there'⟩ := h.kept _ _ there
    exact .here there' holds
  | outward there passes parent rest ih =>
    obtain ⟨table, there'⟩ := h.kept _ _ there
    exact .outward there' passes parent ih

theorem hoistTargetFrom_eq {id top : ScopeId} {count fuel : Nat} (rises : s.Rises id count top)
    (enough : count ≤ fuel) : s.hoistTargetFrom fuel id = some top := by
  induction rises generalizing fuel with
  | here there holds =>
    cases fuel with
    | zero => rfl
    | succ fuel => rw [hoistTargetFrom, there]; simp only [holds, if_true]
  | outward there passes parent rest ih =>
    cases fuel with
    | zero => omega
    | succ fuel =>
      rw [hoistTargetFrom, there]
      simp only [passes, Bool.false_eq_true, if_false, parent]
      exact ih (by omega)

def Targets (s : Scopes) (hoisted : Bool) (c : NodeId) : Prop :=
  ∃ start id scope, s.current = some start ∧ s.scope? id = some scope ∧ scope.container = c ∧
    if hoisted then ∃ count, s.Rises start count id ∧ count ≤ maxScopeSteps else id = start

theorem Targets.of_builds {hoisted : Bool} {c : NodeId} (target : s.Targets hoisted c)
    (h : Builds s s' nodes names) : s'.Targets hoisted c := by
  obtain ⟨start, id, scope, current, there, same, way⟩ := target
  obtain ⟨table, there'⟩ := h.kept _ _ there
  refine ⟨start, id, _, h.current.trans current, there', same, ?_⟩
  cases hoisted with
  | false => exact way
  | true =>
    obtain ⟨count, rises, low⟩ := way
    exact ⟨count, rises.of_grows h.toGrows, low⟩

theorem builds_declare {t : Tree} {d : Declaration} {c : NodeId} (target : s.Targets d.hoisted c) :
    Builds s (s.declare t d) (fun _ => False)
      (fun c' x => c' = c ∧ t.identifierText? (some d.name) = some x) := by
  obtain ⟨start, id, scope, current, there, rfl, way⟩ := target
  have goal : (if d.hoisted then s.hoistTarget else s.current) = some id := by
    cases hoisted : d.hoisted with
    | false =>
      rw [hoisted] at way
      rw [if_neg Bool.false_ne_true, current]
      exact congrArg some (Eq.symm way)
    | true =>
      rw [hoisted] at way
      obtain ⟨count, rises, low⟩ := way
      rw [if_pos rfl, hoistTarget, current]
      exact hoistTargetFrom_eq rises low
  unfold declare
  rw [goal]
  cases text : t.identifierText? (some d.name) with
  | none => exact (Builds.refl s).imp (fun _ no => no) (by simp)
  | some name =>
    refine (builds_declareIn there d.form name d.name).imp (fun _ no => no) fun c x => ?_
    rw [Option.some.injEq, eq_comm (a := name)]

theorem builds_declareAll {t : Tree} {ds : List Declaration} (place : Declaration → NodeId)
    (targets : ∀ d ∈ ds, s.Targets d.hoisted (place d)) :
    Builds s (s.declareAll t ds) (fun _ => False)
      (fun c x => ∃ d ∈ ds, c = place d ∧ t.identifierText? (some d.name) = some x) := by
  induction ds generalizing s with
  | nil => exact (Builds.refl s).imp (fun _ no => no) (by simp)
  | cons d ds ih =>
    have first := builds_declare (t := t) (targets d (List.mem_cons_self ..))
    have rest := ih fun d' inside => (targets d' (List.mem_cons_of_mem _ inside)).of_builds first
    exact (first.trans rest).imp (by simp) fun c x => by simp

end PathGuard.Scopes
