import PathGuard.Proofs.Scope.Open
/-!
# The forest of scopes

Every scope but that of the whole text lies in an earlier one, no node has two scopes, and all scopes
are closed in the end. A node finds the scope that it opens, or shares with the function whose body
it is; every other node finds the scope of the nearest node around it that has one, however deeply it
is nested. The steps of the walk close what they open, and this carries all of it from step to step.
-/

namespace PathGuard

namespace Tree

/-- Whether a node is a block, and the body of a function. -/
def IsBlockBody (t : Tree) (function body : NodeId) : Prop :=
  ∃ modifiers isAsync isGenerator name parameters isArrow,
    t.recordAt? (some function) =
      some (.function modifiers isAsync isGenerator name parameters (some body) isArrow) ∧
    t.kind? (some body) = some .block

theorem Sound.sharedBody?_eq_some {t : Tree} (sound : t.Sound) {i b : NodeId} :
    t.sharedBody? i = some b ↔ t.IsBlockBody i b := by
  constructor
  · intro shared
    unfold sharedBody? at shared
    split at shared
    · cases shared
    · next record _ =>
      split at shared
      · next block =>
        subst shared
        exact ⟨_, _, _, _, _, _, record, block⟩
      · cases shared
    · cases shared
  · rintro ⟨_, _, _, _, _, _, record, block⟩
    obtain ⟨i', n, same, hn, construct⟩ := sound.construct_of_recordAt? record
    rw [Option.some.injEq] at same
    subst same
    have function : n.kind.isFunction = true := isFunction_of_shape construct.layout.shape
    have other : t.kind? (some i) ≠ some .classExpression := by
      intro kind
      rw [kind?_of_node hn, Option.some.injEq] at kind
      rw [kind] at function
      cases function
    unfold sharedBody?
    rw [record]
    split
    · next kind => exact absurd kind other
    · next same _ =>
      cases same
      exact if_pos block
    · next none_ => exact absurd rfl (none_ _ _ _ _ _ _ _)

end Tree

namespace Scopes

/-! ### What steps close -/

/-- Whether steps that begin while `depth` scopes are open close all of them, the last one at their
end, and before it each scope that they open. -/
inductive Closes : (depth : Nat) → List BindStep → Prop where
  | done : Closes 0 []
  | visit {depth : Nat} {id : Child} {rest : List BindStep} (more : Closes (depth + 1) rest) :
      Closes (depth + 1) (.visit id :: rest)
  | enter {depth : Nat} {kind : ScopeKind} {i : NodeId} {rest : List BindStep}
      (more : Closes (depth + 2) rest) : Closes (depth + 1) (.enter kind i :: rest)
  | leave {depth : Nat} {rest : List BindStep} (more : Closes depth rest) :
      Closes (depth + 1) (.leave :: rest)

theorem closes_visits {depth : Nat} {rest : List BindStep} (more : Closes (depth + 1) rest)
    (l : List Child) : Closes (depth + 1) (l.map .visit ++ rest) := by
  induction l with
  | nil => exact more
  | cons id l ih => exact .visit ih

theorem closes_scopeSteps {depth : Nat} {rest : List BindStep} (more : Closes (depth + 1) rest)
    (kind : ScopeKind) (i : NodeId) (l : List Child) :
    Closes (depth + 1) (scopeSteps kind i l ++ rest) := by
  rw [scopeSteps, List.cons_append, List.append_assoc]
  apply Closes.enter
  apply closes_visits
  exact .leave more

theorem closes_steps {depth : Nat} {rest : List BindStep} (more : Closes (depth + 1) rest)
    (t : Tree) (i : NodeId) : Closes (depth + 1) (t.steps i ++ rest) := by
  rw [t.steps_eq_planOf i, Plan.steps, List.append_assoc]
  apply closes_visits
  unfold Plan.opened
  split
  · exact more
  · exact closes_scopeSteps more ..

/-! ### What opened a scope -/

variable {t : Tree} {s s' : Scopes} {rest : List BindStep}

def kind? (s : Scopes) (id : ScopeId) : Option ScopeKind := (s.scope? id).map Scope.kind

theorem kind?_declareIn (s : Scopes) (id : ScopeId) (form : DeclarationForm) (name : String)
    (node : NodeId) (id' : ScopeId) : (s.declareIn id form name node).kind? id' = s.kind? id' := by
  unfold declareIn
  cases there : s.scope? id with
  | none => rfl
  | some scope =>
    obtain ⟨-, table, -, scopes⟩ := symbolFor_spec there form.bit name
    show Option.map _ ((s.symbolFor id scope form.bit name).2.scope? id') = _
    rw [scopes id']
    by_cases here : id' = id
    · rw [if_pos here, here, kind?, there, Option.map_some, Option.map_some]
    · rw [if_neg here, kind?]

theorem kind?_declareAll (s : Scopes) (t : Tree) (ds : List Declaration) (id : ScopeId) :
    (s.declareAll t ds).kind? id = s.kind? id := by
  induction ds generalizing s with
  | nil => rfl
  | cons d ds ih =>
    have first : (s.declare t d).kind? id = s.kind? id := by
      unfold declare
      split
      · apply kind?_declareIn
      · rfl
    exact (ih _).trans first

theorem kind?_enterNode (s : Scopes) (t : Tree) (kind : ScopeKind) (i : NodeId) (id : ScopeId) :
    (s.enterNode t kind i).kind? id = if id = s.scopes.size then some kind else s.kind? id := by
  have entered : (s.enter kind i).kind? id = if id = s.scopes.size then some kind else s.kind? id := by
    rw [kind?, scope?_enter]
    split <;> rfl
  have declared := (kind?_declareAll (s.enter kind i) t (t.innerDeclarations i) id).trans entered
  unfold enterNode shareCurrent
  cases t.sharedBody? i with
  | none => exact declared
  | some body =>
    simp only
    split
    · exact declared
    · exact declared

theorem kind?_leave (s : Scopes) (id : ScopeId) : s.leave.kind? id = s.kind? id := by
  rw [kind?, kind?, scope?, scope?, leave_scopes]

/-! ### The invariant of the walk -/

/-- Whether the first scope is that of a source file and lies in none, every other one lies in an
earlier one, and the body of a function has a scope when the function has one. -/
structure Rooted (s : Scopes) (t : Tree) : Prop where
  first : ∀ outer i, s.place? 0 = some (outer, i) → outer = none
  kind : ∀ kind, s.kind? 0 = some kind → kind = .sourceFile
  inner : ∀ id outer i, s.place? (id + 1) = some (outer, i) → ∃ far ≤ id, outer = some far
  shares : ∀ id outer i b, s.place? id = some (outer, i) → t.sharedBody? i = some b →
    ∃ id', s.ofNode[b]? = some id'

theorem Rooted.of_same (h : s.Rooted t) (place : ∀ id, s'.place? id = s.place? id)
    (kind : ∀ id, s'.kind? id = s.kind? id) (ofNode : s'.ofNode = s.ofNode) : s'.Rooted t where
  first := by
    intro outer i there
    exact h.first outer i (place 0 ▸ there)
  kind := by
    intro k opened
    exact h.kind k (kind 0 ▸ opened)
  inner := by
    intro id outer i there
    exact h.inner id outer i (place (id + 1) ▸ there)
  shares := by
    intro id outer i b there shared
    rw [ofNode]
    exact h.shares id outer i b (place id ▸ there) shared

theorem Rooted.enter (h : s.Rooted t) (kind : ScopeKind) (i : NodeId) {outer : ScopeId}
    (current : s.current = some outer) (below : outer < s.scopes.size) :
    (s.enterNode t kind i).Rooted t := by
  obtain ⟨-, places, nodes⟩ := enterNode_place s t kind i
  have old : 0 ≠ s.scopes.size := Nat.ne_of_lt (Nat.zero_lt_of_lt below)
  constructor
  · intro outer' j there
    rw [places, if_neg old] at there
    exact h.first outer' j there
  · intro k opened
    rw [kind?_enterNode, if_neg old] at opened
    exact h.kind k opened
  · intro id outer' j there
    rw [places] at there
    by_cases last : id + 1 = s.scopes.size
    · rw [if_pos last, Option.some.injEq, Prod.mk.injEq] at there
      exact ⟨outer, Nat.le_of_lt_succ (Nat.lt_of_lt_of_eq below last.symm), there.1 ▸ current⟩
    · rw [if_neg last] at there
      exact h.inner id outer' j there
  · intro id outer' j b there shared
    rw [places] at there
    rw [nodes]
    by_cases last : id = s.scopes.size
    · rw [if_pos last, Option.some.injEq, Prod.mk.injEq] at there
      rw [there.2, if_pos (.inr shared)]
      exact ⟨_, rfl⟩
    · rw [if_neg last] at there
      obtain ⟨id', known⟩ := h.shares id outer' j b there shared
      split
      · exact ⟨_, rfl⟩
      · exact ⟨id', known⟩

theorem rooted_first (t : Tree) (i : NodeId) : (empty.enterNode t .sourceFile i).Rooted t := by
  obtain ⟨-, places, nodes⟩ := enterNode_place empty t .sourceFile i
  have nothing (id : ScopeId) : empty.place? id = none := rfl
  have size : empty.scopes.size = 0 := rfl
  simp only [size, nothing] at places nodes
  constructor
  · intro outer j there
    rw [places, if_pos rfl, Option.some.injEq, Prod.mk.injEq] at there
    exact there.1.symm
  · intro k opened
    rw [kind?_enterNode, size, if_pos rfl, Option.some.injEq] at opened
    exact opened.symm
  · intro id outer j there
    rw [places, if_neg (Nat.succ_ne_zero id)] at there
    cases there
  · intro id outer j b there shared
    rw [places] at there
    split at there
    · rw [Option.some.injEq, Prod.mk.injEq] at there
      rw [nodes, there.2, if_pos (.inr shared)]
      exact ⟨_, rfl⟩
    · cases there

/-- What holds while a text is walked over, from its own scope on. -/
structure Growing (t : Tree) (steps : List BindStep) (s : Scopes) : Prop where
  rooted : s.Rooted t
  opened : ∃ os, s.Opened s.current os ∧ Closes os.length steps

theorem Growing.step {next : BindStep} (h : Growing t (next :: rest) s) :
    Growing t ((s.step t next).1 ++ rest) (s.step t next).2 := by
  obtain ⟨rooted, os, opened, closes⟩ := h
  have keeps := keeps_step s t next
  cases os with
  | nil => cases closes
  | cons o os =>
    generalize current : s.current = id at opened
    cases opened with
    | @cons id outer _ _ there outwards =>
      cases closes with
      | @visit _ c _ more =>
        cases c with
        | none => exact ⟨rooted, o :: os, current ▸ .cons there outwards, more⟩
        | some c =>
          have alike := alike_declareAll s t (t.declarations c)
          have kinds := kind?_declareAll s t (t.declarations c)
          refine ⟨rooted.of_same alike.place kinds alike.ofNode, o :: os, ?_,
            closes_steps more t c⟩
          show (s.declareAll t (t.declarations c)).Opened (s.declareAll t (t.declarations c)).current _
          rw [alike.current, current]
          exact .cons (keeps _ _ there) (outwards.keeps keeps)
      | @enter _ kind i _ more =>
        obtain ⟨inside, places, -⟩ := enterNode_place s t kind i
        have low : id < s.scopes.size := by
          obtain ⟨scope, found, -⟩ := Option.map_eq_some_iff.1 there
          exact scope?_lt found
        refine ⟨rooted.enter kind i current low, i :: o :: os, ?_, more⟩
        show (s.enterNode t kind i).Opened (s.enterNode t kind i).current _
        rw [inside]
        apply Opened.cons
        · rw [places, if_pos rfl, current]
        · exact .cons (keeps _ _ there) (outwards.keeps keeps)
      | leave more =>
        obtain ⟨place, ofNode⟩ := alike_leave s
        refine ⟨rooted.of_same place (kind?_leave s) ofNode, os, ?_, more⟩
        obtain ⟨scope, found, same⟩ := Option.map_eq_some_iff.1 there
        rw [Prod.mk.injEq] at same
        show s.leave.Opened s.leave.current _
        rw [leave_current current found, same.1]
        exact outwards.keeps keeps

theorem Growing.leads {k : Nat} {l l' : List BindStep} (h : Growing t l s)
    (leads : Leads t k l s l' s') : Growing t l' s' := by
  induction leads with
  | here => exact h
  | step onwards ih => exact ih h.step

theorem Growing.closed (h : Growing t [] s) : s.current = none := by
  obtain ⟨os, opened, closes⟩ := h.opened
  cases os with
  | nil =>
    generalize s.current = current at opened
    cases opened
    rfl
  | cons => cases closes

/-! ### Climbing -/

/-- Whether a climb along parents comes past `count` nodes, the first one included, to one that has a
scope, or out of the tree, where the first scope is. -/
inductive Climbs (s : Scopes) (t : Tree) : Child → (count : Nat) → ScopeId → Prop where
  | out : Climbs s t none 0 0
  | found {i : NodeId} {id : ScopeId} (known : s.ofNode[i]? = some id) : Climbs s t (some i) 1 id
  | further {i : NodeId} {count : Nat} {id : ScopeId} (unknown : s.ofNode[i]? = none)
      (rest : Climbs s t (t.parent (some i)) count id) : Climbs s t (some i) (count + 1) id

theorem exists_climbs (sound : t.Sound) (s : Scopes) {left i : Nat} (bound : t.size ≤ i + left)
    (there : i < t.size) : ∃ count ≤ left, ∃ id, s.Climbs t (some i) count id := by
  induction left generalizing i with
  | zero => omega
  | succ left ih =>
    cases known : s.ofNode[i]? with
    | some id => exact ⟨1, by omega, id, .found known⟩
    | none =>
      cases parent : t.parent (some i) with
      | none => exact ⟨1, by omega, 0, .further known (parent ▸ .out)⟩
      | some p =>
        have above := sound.parent_lt parent
        obtain ⟨n, r, hn, -⟩ := sound.belongs parent
        obtain ⟨count, few, id, climbs⟩ := ih (i := p) (by omega) (Tree.lt_size_of_node hn)
        exact ⟨count + 1, by omega, id, .further known (parent ▸ climbs)⟩

theorem Climbs.enclosingWithin {c : Child} {count fuel : Nat} {id : ScopeId}
    (climbs : s.Climbs t c count id) (enough : count ≤ fuel) (top : s.outermost? = some 0) :
    s.enclosingWithin t fuel c = some id := by
  induction climbs generalizing fuel with
  | out => cases fuel <;> exact top
  | found known =>
    obtain ⟨fuel, rfl⟩ := Nat.exists_eq_add_of_le' enough
    rw [Scopes.enclosingWithin, known]
  | further unknown rest ih =>
    cases fuel with
    | zero => omega
    | succ fuel =>
      rw [Scopes.enclosingWithin, unknown]
      exact ih (by omega)

/-! ### The forest -/

/-- Whether scopes form a forest over a tree: the first one is that of a source file, each other one
lies in an earlier one, and no two belong to the same node. Nodes know the scopes that they open, and
those that they share as bodies of functions. No scope is open. From every node of the tree a climb
finds the scope around it, and the bounded climb finds the same. -/
structure IsForest (s : Scopes) (t : Tree) : Prop where
  outermost : ∃ scope, s.scope? 0 = some scope ∧ scope.kind = .sourceFile ∧ scope.parent = none
  inner : ∀ id scope, s.scope? id = some scope → id ≠ 0 →
    ∃ outer around, outer < id ∧ scope.parent = some outer ∧ s.scope? outer = some around
  container : ∀ id scope, s.scope? id = some scope → (t.node? (some scope.container)).isSome = true
  once : s.Once
  ofNode : ∀ i id, s.ofNode[i]? = some id ↔ ∃ scope, s.scope? id = some scope ∧
    (scope.container = i ∨ t.IsBlockBody scope.container i)
  closed : s.current = none
  enclosing : ∀ i < t.size, ∃ count ≤ t.size, ∃ id, s.Climbs t (some i) count id ∧
    s.enclosing? t (some i) = some id

theorem Nested.ofNode_iff (sound : t.Sound) (nested : s.Nested t) (once : s.Once)
    (rooted : s.Rooted t) (i : NodeId) (id : ScopeId) :
    s.ofNode[i]? = some id ↔ ∃ scope, s.scope? id = some scope ∧
      (scope.container = i ∨ t.IsBlockBody scope.container i) := by
  constructor
  · intro known
    obtain ⟨outer, j, there, owner⟩ := nested.found i id known
    obtain ⟨scope, found, -, rfl⟩ := scope?_of_place? there
    rw [sound.sharedBody?_eq_some] at owner
    exact ⟨scope, found, owner⟩
  · rintro ⟨scope, found, rfl | body⟩
    · exact nested.ofNode_owner sound once (place?_of_scope? found)
    · have shared := sound.sharedBody?_eq_some.2 body
      obtain ⟨id', known⟩ := rooted.shares id _ _ i (place?_of_scope? found) shared
      obtain ⟨parent, isBody, owns⟩ := sound.sharedBody?_spec shared
      have same := nested.ofNode_between sound once (place?_of_scope? found) (.here parent owns)
        isBody.not_ownsScope known
      rw [known, same]

theorem IsForest.of_walk (sound : t.Sound) (nested : s.Nested t) (once : s.Once)
    (growing : Growing t [] s) {first : Option ScopeId × NodeId} (top : s.place? 0 = some first) :
    s.IsForest t := by
  have rooted := growing.rooted
  obtain ⟨scope, found, lies, -⟩ := scope?_of_place? top
  have outermost : s.outermost? = some 0 := by
    have size := scope?_lt found
    rw [outermost?, if_neg (by simpa [Array.isEmpty_iff_size_eq_zero] using Nat.ne_of_gt size)]
  constructor
  · refine ⟨scope, found, ?_, ?_⟩
    · apply rooted.kind
      rw [kind?, found, Option.map_some]
    · rw [lies]
      exact rooted.first _ _ top
  · intro id scope' found' other
    obtain ⟨id, rfl⟩ := Nat.exists_eq_succ_of_ne_zero other
    obtain ⟨outer, low, parent⟩ := rooted.inner id _ _ (place?_of_scope? found')
    have size : outer < s.scopes.size := Nat.lt_of_le_of_lt low (Nat.lt_of_succ_lt (scope?_lt found'))
    exact ⟨outer, s.scopes[outer], Nat.lt_succ_of_le low, parent, Array.getElem?_eq_getElem size⟩
  · intro id scope' found'
    obtain ⟨n, hn, -⟩ := nested.owns id _ _ (place?_of_scope? found')
    rw [Tree.node?_some, hn]
    rfl
  · exact once
  · exact nested.ofNode_iff sound once rooted
  · exact growing.closed
  · intro i there
    obtain ⟨count, few, id, climbs⟩ := exists_climbs sound s (Nat.le_add_left t.size i) there
    exact ⟨count, few, id, climbs, climbs.enclosingWithin few outermost⟩

theorem ofTree_isForest (sound : t.Sound) {i : Nat} {n : Node} (hn : t.nodes[i]? = some n)
    (file : n.kind = .sourceFile) (top : t.parent (some i) = none) :
    (ofTree t (some i)).IsForest t := by
  obtain ⟨r, construct, shape⟩ := sound.construct_of_shape hn (congrArg NodeKind.shape? file)
  cases r <;> cases shape
  next statements endOfFile fileName =>
  obtain ⟨⟨steps, leads⟩, -⟩ := leads_ofTree sound hn file construct
  have nested := ((walking_start sound hn file top construct).leads sound leads).nested
  have once := (ofTree_spec sound hn file).1
  obtain ⟨inside, places, -⟩ := enterNode_place empty t .sourceFile i
  have made : (empty.enterNode t .sourceFile i).place? 0 = some (none, i) := places 0
  cases leads with
  | step onwards =>
    have start : Growing t (statements.nodes.map .visit ++ [.leave])
        (empty.enterNode t .sourceFile i) := by
      refine ⟨rooted_first t i, [i], ?_, closes_visits (.leave .done) statements.nodes⟩
      rw [inside]
      exact .cons made .nil
    exact .of_walk sound nested once (start.leads onwards) (onwards.keeps 0 _ made)

end Scopes

/-- The scopes of every text form a forest over its tree, also where the text has syntax
problems. -/
theorem parseFile_scopes_isForest (fileName source : String) :
    (parseFile fileName source).scopes.IsForest (parseFile fileName source).tree := by
  obtain ⟨sound, root, n, isRoot, hn, file, top⟩ := parseFile_sound fileName source
  rw [ParsedFile.scopes, isRoot]
  apply Scopes.ofTree_isForest sound hn file
  rw [Tree.parent, Tree.node?_some, hn]
  exact top

end PathGuard
