import PathGuard.Proofs.Scope.Growth
import PathGuard.Proofs.Scope.Plan
/-!
# Binding a whole tree

Looking at a node adds the scopes of the nodes below it, and the names that they declare, to the
scopes that they belong to. The steps of a node are few enough for the bound on the walk, since
every node of a sound tree is looked at once at most.
-/

namespace PathGuard

namespace Tree

def DeclaresIn (t : Tree) (d : Nat) (c : Nat) (x : String) : Prop :=
  (∃ e ∈ t.declarations d, t.identifierText? (some e.name) = some x ∧
    t.Nearest (if e.hoisted then t.HoldsHoisted else t.OwnsScope) d c) ∨
  c = d ∧ ∃ e ∈ t.innerDeclarations d, t.identifierText? (some e.name) = some x

def DeclaresBelow (t : Tree) (i : Nat) (c : Nat) (x : String) : Prop :=
  ∃ d, t.Below i d ∧ t.DeclaresIn d c x

def stepsBelow (t : Tree) (i : Nat) : Nat := t.weightBelow (fun d => (t.steps d).length) i

section Plans

variable {t : Tree} {i : Nat} {n : Node} {p : Plan}

/-- What a node and all below it declare is what the node declares and what lies below the nodes
that it looks at. -/
theorem Plans.declaresBelow (plan : t.Plans i n p) {c : Nat} {x : String} :
    t.DeclaresBelow i c x ↔ t.DeclaresIn i c x ∨ ∃ a ∈ p.visited, t.DeclaresBelow a c x := by
  constructor
  · rintro ⟨d, below, declares⟩
    rcases plan.covers d below with rfl | ⟨a, looked, below⟩ | ⟨nothing, nothing'⟩
    · exact .inl declares
    · exact .inr ⟨a, looked, d, below, declares⟩
    · unfold DeclaresIn at declares
      rw [nothing, nothing'] at declares
      simp at declares
  · rintro (declares | ⟨a, looked, d, below, declares⟩)
    · exact ⟨i, .self, declares⟩
    · exact ⟨d, (plan.below a looked).1.trans below, declares⟩

theorem sum_flatMap (l : List Nat) (below : Nat → List Nat) (added : Nat → Nat) :
    ((l.flatMap below).map added).sum = (l.map fun a => ((below a).map added).sum).sum := by
  induction l with
  | nil => rfl
  | cons a l ih => simp [ih]

/-- The steps of a node and those of all below it are more than those that a walk comes to which
looks at some nodes below, each in its own place. -/
theorem Sound.sum_stepsBelow_le (sound : t.Sound) {l : List Nat}
    (inside : ∀ c ∈ l, t.Below i c ∧ c < i) (apart : l.Pairwise t.Separate) :
    (l.map t.stepsBelow).sum + (t.steps i).length ≤ t.stepsBelow i := by
  have nodup : (i :: l.flatMap t.preorder).Nodup := by
    rw [List.nodup_cons, List.nodup_flatMap]
    refine ⟨fun again => ?_, fun c _ => sound.preorder_nodup c, apart.imp ?_⟩
    · obtain ⟨c, looked, below⟩ := List.mem_flatMap.1 again
      have := (sound.mem_preorder.1 below).le sound
      have := (inside c looked).2
      omega
    · intro a b separate d below below'
      exact separate d (sound.mem_preorder.1 below) (sound.mem_preorder.1 below')
  have subset : i :: l.flatMap t.preorder ⊆ t.preorder i := by
    intro d listed
    rw [sound.mem_preorder]
    rcases List.mem_cons.1 listed with rfl | listed
    · exact .self
    · obtain ⟨c, looked, below⟩ := List.mem_flatMap.1 listed
      exact (inside c looked).1.trans (sound.mem_preorder.1 below)
  have low := sum_le_sum nodup subset fun d => (t.steps d).length
  rw [List.map_cons, List.sum_cons, sum_flatMap] at low
  rw [Nat.add_comm]
  exact low

theorem Plans.stepsBelow_le (sound : t.Sound) (plan : t.Plans i n p) :
    (p.visited.map t.stepsBelow).sum + (t.steps i).length ≤ t.stepsBelow i :=
  sound.sum_stepsBelow_le plan.below plan.apart

theorem Sound.nested_part (sound : t.Sound) (hn : t.nodes[i]? = some n) {m : Nat}
    (nested : t.Nested m i) (counts : n.kind.isBoundary = false) {c : Nat}
    (part : t.parent (some c) = some i) : ∃ m', t.Nested m' c ∧ m' + n.kind.weight ≤ m := by
  obtain ⟨n', r, hn', hc, named⟩ := sound.belongs part
  rw [hn, Option.some.injEq] at hn'
  subst hn'
  cases nested with
  | bare node slot =>
    rw [hn, Option.some.injEq] at node
    subst node
    have record := hc.record
    unfold record? at record
    rw [slot] at record
    simp at record
  | boundary node kind =>
    rw [hn, Option.some.injEq] at node
    rw [← node, counts] at kind
    cases kind
  | inside node record parts bound =>
    rw [hn, Option.some.injEq] at node
    subst node
    rw [hc.record, Option.some.injEq] at record
    exact ⟨_, parts c (record ▸ named), bound⟩

end Plans

end Tree

namespace Scopes

/-- Whether the walk gets in `n` steps from a stack of steps, and the scopes so far, to others. -/
inductive Leads (t : Tree) : (n : Nat) → List BindStep → Scopes → List BindStep → Scopes → Prop where
  | here {l : List BindStep} {s : Scopes} : Leads t 0 l s l s
  | step {next : BindStep} {rest l : List BindStep} {s s' : Scopes} {n : Nat}
      (onwards : Leads t n ((s.step t next).1 ++ rest) (s.step t next).2 l s') :
      Leads t (n + 1) (next :: rest) s l s'

/-- Whether some steps, with all that they lead to, turn scopes into others, with at most `bound`
steps in all. -/
def Runs (t : Tree) (steps : List BindStep) (bound : Nat) (s s' : Scopes) : Prop :=
  ∃ n ≤ bound, ∀ rest, Leads t n (steps ++ rest) s rest s'

/-- Whether the open scope is the one around a node, and parentheses and scopes in the node are
nested at most `m` deep. -/
def Around (s : Scopes) (t : Tree) (i : Nat) (m : Nat) : Prop :=
  ∃ start scope count id top, s.current = some start ∧ s.scope? start = some scope ∧
    t.Nearest t.OwnsScope i scope.container ∧ s.Rises start count id ∧ s.scope? id = some top ∧
    t.Nearest t.HoldsHoisted i top.container ∧ count + m ≤ Tree.nestLimit

def Ready (s : Scopes) (t : Tree) (i : Nat) : Prop :=
  t.IsClosed i ∨ ∃ m, t.Nested m i ∧ s.Around t i m

variable {t : Tree} {s s' s'' : Scopes}

/-! ### Runs -/

theorem Leads.trans {l l' l'' : List BindStep} {m n : Nat} (h : Leads t m l s l' s')
    (h' : Leads t n l' s' l'' s'') : Leads t (m + n) l s l'' s'' := by
  induction h with
  | here => rwa [Nat.zero_add]
  | step onwards ih =>
    rw [Nat.add_right_comm]
    exact .step (ih h')

theorem Leads.runWithin_eq {l : List BindStep} {n : Nat} (h : Leads t n l s [] s') (fuel : Nat) :
    runWithin t (n + fuel) l s = s' := by
  generalize ended : ([] : List BindStep) = l' at h
  induction h with
  | here =>
    subst ended
    cases 0 + fuel <;> rfl
  | step onwards ih =>
    rw [Nat.add_right_comm, runWithin]
    exact ih ended

theorem runs_nil (t : Tree) (s : Scopes) : Runs t [] 0 s s :=
  ⟨0, Nat.le_refl 0, fun _ => .here⟩

theorem Runs.append {first second : List BindStep} {m n : Nat} (h : Runs t first m s s')
    (h' : Runs t second n s' s'') : Runs t (first ++ second) (m + n) s s'' := by
  obtain ⟨a, low, runs⟩ := h
  obtain ⟨b, low', runs'⟩ := h'
  refine ⟨a + b, by omega, fun rest => ?_⟩
  rw [List.append_assoc]
  exact (runs _).trans (runs' rest)

theorem Runs.mono {steps : List BindStep} {m n : Nat} (h : Runs t steps m s s') (low : m ≤ n) :
    Runs t steps n s s' := by
  obtain ⟨a, low', runs⟩ := h
  exact ⟨a, Nat.le_trans low' low, runs⟩

theorem runs_step (next : BindStep) {m : Nat}
    (h : Runs t (s.step t next).1 m (s.step t next).2 s') : Runs t [next] (m + 1) s s' := by
  obtain ⟨a, low, runs⟩ := h
  exact ⟨a + 1, by omega, fun rest => .step (runs rest)⟩

theorem Runs.leads {steps : List BindStep} {bound : Nat} (h : Runs t steps bound s s') :
    ∃ n ≤ bound, Leads t n steps s [] s' := by
  obtain ⟨n, low, runs⟩ := h
  have all := runs []
  rw [List.append_nil] at all
  exact ⟨n, low, all⟩

theorem Runs.result {steps : List BindStep} {bound fuel : Nat} (h : Runs t steps bound s s')
    (enough : bound ≤ fuel) : runWithin t fuel steps s = s' := by
  obtain ⟨n, low, leads⟩ := h.leads
  have all := leads.runWithin_eq (fuel - n)
  rwa [Nat.add_sub_cancel' (by omega)] at all

/-! ### What is open -/

theorem Around.of_builds {i m : Nat} {nodes : Nat → Prop} {names : Nat → String → Prop}
    (around : s.Around t i m) (h : Builds s s' nodes names) : s'.Around t i m := by
  obtain ⟨start, scope, count, id, top, current, there, owner, rises, there', holder, low⟩ := around
  obtain ⟨table, kept⟩ := h.kept _ _ there
  obtain ⟨table', kept'⟩ := h.kept _ _ there'
  exact ⟨start, _, count, id, _, h.current.trans current, kept, owner, rises.of_grows h.toGrows,
    kept', holder, low⟩

theorem Ready.of_builds {i : Nat} {nodes : Nat → Prop} {names : Nat → String → Prop}
    (ready : s.Ready t i) (h : Builds s s' nodes names) : s'.Ready t i := by
  rcases ready with closed | ⟨m, nested, around⟩
  · exact .inl closed
  · exact .inr ⟨m, nested, around.of_builds h⟩

theorem Ready.builds_declarations {i : Nat} {n : Node} (hn : t.nodes[i]? = some n)
    (ready : s.Ready t i) :
    Builds s (s.declareAll t (t.declarations i)) (fun _ => False) (fun c x =>
      ∃ e ∈ t.declarations i, t.identifierText? (some e.name) = some x ∧
        t.Nearest (if e.hoisted then t.HoldsHoisted else t.OwnsScope) i c) := by
  rcases ready with closed | ⟨m, -, around⟩
  · rw [Tree.declarations_of_closed hn (closed n hn)]
    exact (Builds.refl s).imp (fun _ no => no) (by simp)
  · obtain ⟨start, scope, count, id, top, current, there, owner, rises, there', holder, low⟩ := around
    have few : count ≤ maxScopeSteps := by
      have : Tree.nestLimit ≤ maxScopeSteps := by decide
      omega
    have targets (e : Declaration) : s.Targets e.hoisted
        (if e.hoisted then top.container else scope.container) := by
      cases e.hoisted with
      | false => exact ⟨start, start, scope, current, there, rfl, rfl⟩
      | true => exact ⟨start, id, top, current, there', rfl, count, rises, few⟩
    refine (builds_declareAll _ fun e _ => targets e).imp (fun _ no => no) fun c x => ?_
    have place (e : Declaration) : c = (if e.hoisted then top.container else scope.container) ↔
        t.Nearest (if e.hoisted then t.HoldsHoisted else t.OwnsScope) i c := by
      cases e.hoisted with
      | false => exact ⟨fun same => same ▸ owner, fun near => near.unique owner⟩
      | true => exact ⟨fun same => same ▸ holder, fun near => near.unique holder⟩
    simp only [place, and_comm]

/-! ### Opening the scope of a node -/

theorem ownName_hoisted {form : DeclarationForm} {id : Child} :
    ∀ e ∈ t.ownName form id, e.hoisted = false := by
  intro e he
  unfold Tree.ownName at he
  split at he
  · rw [List.mem_singleton] at he
    rw [he]
  · cases he

theorem innerDeclarations_hoisted {i : Nat} : ∀ e ∈ t.innerDeclarations i, e.hoisted = false := by
  intro e he
  unfold Tree.innerDeclarations at he
  split at he
  · exact ownName_hoisted e he
  · exact ownName_hoisted e he
  · cases he

theorem enterNode_spec (kind : ScopeKind) {i : NodeId} (new : s.Lacks (· = i)) :
    Grows s (s.enterNode t kind i) (· = i)
        (fun c x => c = i ∧ ∃ e ∈ t.innerDeclarations i, t.identifierText? (some e.name) = some x) ∧
      ∃ id table, (s.enterNode t kind i).current = some id ∧
        (s.enterNode t kind i).scope? id = some ⟨s.current, kind, i, table⟩ := by
  have entered : (s.enter kind i).scope? s.scopes.size = some ⟨s.current, kind, i, ∅⟩ := by
    rw [scope?_enter, if_pos rfl]
  have declared : Builds (s.enter kind i) ((s.enter kind i).declareAll t (t.innerDeclarations i))
      (fun _ => False) (fun c x => ∃ e ∈ t.innerDeclarations i, c = i ∧
        t.identifierText? (some e.name) = some x) := by
    refine builds_declareAll (fun _ => i) fun e he => ?_
    rw [innerDeclarations_hoisted e he]
    exact ⟨s.scopes.size, s.scopes.size, _, rfl, entered, rfl, rfl⟩
  have shared : Builds (s.enter kind i) (s.enterNode t kind i) (fun _ => False)
      (fun c x => ∃ e ∈ t.innerDeclarations i, c = i ∧
        t.identifierText? (some e.name) = some x) := by
    unfold enterNode
    split
    · exact (declared.trans (builds_shareCurrent _ _)).imp (by simp) (by simp)
    · exact declared
  obtain ⟨table, there⟩ := shared.kept _ _ entered
  refine ⟨((grows_enter s kind new).trans shared.toGrows).imp (by simp) (fun c x => ?_),
    s.scopes.size, table, shared.current, there⟩
  simp only [false_or]
  constructor
  · rintro ⟨e, he, same, text⟩
    exact ⟨same, e, he, text⟩
  · rintro ⟨same, e, he, text⟩
    exact ⟨e, he, same, text⟩

/-! ### Looking at nodes -/

def Visits (t : Tree) (i : Nat) : Prop :=
  ∀ s : Scopes, s.Lacks (t.Below i) → s.Ready t i →
    ∃ s', Runs t [.visit (some i)] (t.stepsBelow i + 1) s s' ∧
      Builds s s' (t.Below i) (t.DeclaresBelow i)

theorem runs_visits {l : List Child} (each : ∀ c, some c ∈ l → Visits t c)
    (apart : (l.filterMap id).Pairwise t.Separate) (lacks : ∀ c, some c ∈ l → s.Lacks (t.Below c))
    (ready : ∀ c, some c ∈ l → s.Ready t c) :
    ∃ s', Runs t (l.map .visit) (((l.filterMap id).map t.stepsBelow).sum + l.length) s s' ∧
      Builds s s' (fun d => ∃ c, some c ∈ l ∧ t.Below c d)
        (fun o x => ∃ c, some c ∈ l ∧ t.DeclaresBelow c o x) := by
  induction l generalizing s with
  | nil => exact ⟨s, runs_nil t s, (Builds.refl s).imp (by simp) (by simp)⟩
  | cons id l ih =>
    have inside {c : Nat} (h : some c ∈ l) : some c ∈ id :: l := List.mem_cons_of_mem _ h
    cases id with
    | none =>
      obtain ⟨s', runs, builds⟩ := ih (fun c h => each c (inside h)) apart
        (fun c h => lacks c (inside h)) fun c h => ready c (inside h)
      refine ⟨s', ?_, builds.imp (by simp) (by simp)⟩
      exact ((runs_step (.visit none) (runs_nil t s)).append runs).mono (by simp; omega)
    | some a =>
      obtain ⟨far, apart⟩ := List.pairwise_cons.1 apart
      have first := List.mem_cons_self (a := some a) (l := l)
      obtain ⟨s₁, run, build⟩ := each a first s (lacks a first) (ready a first)
      obtain ⟨s', runs, builds⟩ := ih (s := s₁) (fun c h => each c (inside h)) apart
        (fun c h => build.lacks (lacks c (inside h)) (far c (by simpa using h)))
        fun c h => (ready c (inside h)).of_builds build
      refine ⟨s', (run.append runs).mono ?_, (build.trans builds).imp ?_ ?_⟩
      · simp only [List.filterMap_cons, id_eq, List.map_cons, List.sum_cons, List.length_cons]
        omega
      · rintro d (below | ⟨c, h, below⟩)
        · exact ⟨a, first, below⟩
        · exact ⟨c, inside h, below⟩
      · intro o x
        simp

theorem runs_scope {kind : ScopeKind} {i : Nat} {l : List Child}
    (each : ∀ c, some c ∈ l → Visits t c) (apart : (l.filterMap id).Pairwise t.Separate)
    (new : s.Lacks (· = i)) (lacks : ∀ c, some c ∈ l → s.Lacks (t.Below c))
    (outside : ∀ c, some c ∈ l → ¬t.Below c i)
    (ready : ∀ c, some c ∈ l → (s.enterNode t kind i).Ready t c) :
    ∃ s', Runs t (scopeSteps kind i l)
        (((l.filterMap id).map t.stepsBelow).sum + (scopeSteps kind i l).length) s s' ∧
      Builds s s' (fun d => d = i ∨ ∃ c, some c ∈ l ∧ t.Below c d) (fun o x =>
        (o = i ∧ ∃ e ∈ t.innerDeclarations i, t.identifierText? (some e.name) = some x) ∨
          ∃ c, some c ∈ l ∧ t.DeclaresBelow c o x) := by
  obtain ⟨enters, id, table, current, there⟩ := enterNode_spec (t := t) kind new
  obtain ⟨s₂, runs, builds⟩ := runs_visits each apart
    (fun c h => enters.lacks (lacks c h) fun d same below => outside c h (same ▸ below)) ready
  obtain ⟨table', there'⟩ := builds.kept _ _ there
  have enter : Runs t [.enter kind i] 1 s (s.enterNode t kind i) := runs_step _ (runs_nil t _)
  have leave : Runs t [.leave] 1 s₂ s₂.leave := runs_step _ (runs_nil t _)
  refine ⟨s₂.leave, ((enter.append runs).append leave).mono ?_, ?_, ?_⟩
  · rw [scopeSteps, List.length_cons, List.length_append, List.length_map, List.length_singleton]
    omega
  · exact ((enters.trans builds.toGrows).trans (.of_scopes (leave_scopes s₂))).imp
      (by simp) (by simp)
  · exact leave_current (builds.current.trans current) there'

/-! ### Which nodes may be looked at -/

variable {i c : Nat} {n : Node} {p : Plan}

theorem Ready.outer (sound : t.Sound) (hn : t.nodes[i]? = some n) (ready : s.Ready t i)
    (plan : t.Plans i n p) (looked : some c ∈ p.outer) : s.Ready t c := by
  rcases plan.outer c looked with closed | ⟨isOpen, plain, part⟩
  · exact .inl closed
  · rcases ready with closed | ⟨m, nested, around⟩
    · rw [closed n hn] at isOpen
      cases isOpen
    · obtain ⟨start, scope, count, id, top, current, there, owner, rises, there', holder, low⟩ :=
        around
      have notHolder : n.kind.holdsHoisted = false := by
        cases holds : n.kind.holdsHoisted with
        | false => rfl
        | true =>
          rw [NodeKind.opensScope, holds] at plain
          cases plain
      have notOwner := Tree.not_ownsScope_of_kind (Tree.kind?_of_node hn) plain
      have notHoists := Tree.not_holdsHoisted_of_kind (Tree.kind?_of_node hn) notHolder
      have counts : n.kind.isBoundary = false := by
        simp only [NodeKind.opensScope, NodeKind.holdsHoisted, Bool.or_eq_false_iff] at plain
        simp only [NodeKind.isBoundary, Bool.or_eq_false_iff]
        tauto
      obtain ⟨m', nested', less⟩ := sound.nested_part hn nested counts part
      exact .inr ⟨m', nested', start, scope, count, id, top, current, there,
        .further part notOwner owner, rises, there', .further part notHoists holder, by omega⟩

theorem isBlockLike_spec {k : NodeKind} (block : k.isBlockLike = true) :
    k.holdsHoisted = false ∧ k.isBoundary = false ∧ k.isClosed = false ∧ k.weight = 1 := by
  unfold NodeKind.isBlockLike at block
  split at block
  all_goals first
    | exact ⟨rfl, rfl, rfl, rfl⟩
    | cases block

theorem Ready.inner (sound : t.Sound) (hn : t.nodes[i]? = some n) (whole : ¬t.IsFunctionBody i)
    (ready : s.Ready t i ∨ n.kind.isBlockLike = false) (new : s.Lacks (· = i))
    (plan : t.Plans i n p) {kind : ScopeKind}
    (opens : p.opens = some kind) (looked : some c ∈ p.inner) {m : Node}
    (hm : t.nodes[c]? = some m) : (s.enterNode t kind i).Ready t c := by
  obtain ⟨enters, start, table, current, there⟩ := enterNode_spec (t := t) kind new
  obtain ⟨owns, hoists⟩ := plan.opens kind opens
  rcases plan.inner c looked with closed | ⟨block, part⟩ | ⟨holds, owner, holder⟩
  · exact .inl closed
  · obtain ⟨passes, counts, isOpen, weight⟩ := isBlockLike_spec block
    rcases ready with (closed | ⟨m, nested, around⟩) | notBlock
    · rw [closed n hn] at isOpen
      cases isOpen
    · obtain ⟨outer, scope, count, id, top, current', there', owner, rises, there'', holder, low⟩ :=
        around
      obtain ⟨table', kept⟩ := enters.kept _ _ there''
      have notHoists := Tree.not_holdsHoisted_of_kind (Tree.kind?_of_node hn) passes
      obtain ⟨m', nested', less⟩ := sound.nested_part hn nested counts part
      refine .inr ⟨m', nested', start, _, count + 1, id, _, current, there,
        .here part ⟨n, hn, owns, whole⟩, .outward there (hoists.trans passes) current' ?_, kept,
        .further part notHoists holder, by omega⟩
      exact rises.of_grows enters
    · rw [block] at notBlock
      cases notBlock
  · exact .inr ⟨Tree.nestLimit, sound.nested hm, start, _, 0, start, _, current, there, owner,
      .here there (hoists.trans holds), there, holder, by omega⟩

theorem exists_node_of_below (sound : t.Sound) (below : t.Below i c) (less : c < i) :
    ∃ m, t.nodes[c]? = some m := by
  cases below with
  | self => omega
  | part above part =>
    obtain ⟨n, r, hn, hc, named⟩ := sound.belongs (sound.mem_children.1 part)
    exact hc.there c named

theorem innerDeclarations_of_plain (hn : t.nodes[i]? = some n) (plain : n.kind.opensScope = false) :
    t.innerDeclarations i = [] := by
  unfold Tree.innerDeclarations
  rw [Tree.kind?_of_node hn]
  split
  all_goals first
    | rfl
    | (next kind _ => rw [Option.some.inj kind] at plain; cases plain)

theorem runs_opened (sound : t.Sound) (hn : t.nodes[i]? = some n) (whole : ¬t.IsFunctionBody i)
    (plan : t.Plans i n p) (each : ∀ c ∈ p.visited, Visits t c)
    (ready : s.Ready t i ∨ n.kind.isBlockLike = false) (new : s.Lacks (· = i))
    (lacks : ∀ c, some c ∈ p.inner → s.Lacks (t.Below c)) :
    ∃ s', Runs t (p.opened i)
        (((p.inner.filterMap id).map t.stepsBelow).sum + (p.opened i).length) s s' ∧
      Builds s s' (fun d => d = i ∨ ∃ c, some c ∈ p.inner ∧ t.Below c d) (fun o x =>
        (o = i ∧ ∃ e ∈ t.innerDeclarations i, t.identifierText? (some e.name) = some x) ∨
          ∃ c, some c ∈ p.inner ∧ t.DeclaresBelow c o x) := by
  cases opens : p.opens with
  | none =>
    obtain ⟨noInner, plain⟩ := plan.shut opens
    have none_ : p.opened i = [] := by rw [Plan.opened, opens]
    rw [none_, noInner, innerDeclarations_of_plain hn plain]
    exact ⟨s, runs_nil t s, (Builds.refl s).imp (by simp) (by simp)⟩
  | some kind =>
    have some_ : p.opened i = scopeSteps kind i p.inner := by rw [Plan.opened, opens]
    rw [some_]
    have looked {c : Nat} (h : some c ∈ p.inner) : c ∈ p.visited := Plan.mem_visited.2 (.inr h)
    refine runs_scope (fun c h => each c (looked h)) ?_ new lacks (fun c h below => ?_) fun c h => ?_
    · have apart := plan.apart
      rw [Plan.visited, List.filterMap_append, List.pairwise_append] at apart
      exact apart.2.1
    · have := below.le sound
      have := (plan.below c (looked h)).2
      omega
    · obtain ⟨below, less⟩ := plan.below c (looked h)
      obtain ⟨m, hm⟩ := exists_node_of_below sound below less
      exact Ready.inner sound hn whole ready new plan opens h hm

theorem looked_spec (sound : t.Sound) (plan : t.Plans i n p) (looked : c ∈ p.visited) :
    c < i ∧ ¬t.IsFunctionBody c ∧ ∃ m, t.nodes[c]? = some m ∧ m.kind ≠ .sourceFile := by
  obtain ⟨below, less⟩ := plan.below c looked
  obtain ⟨m, hm⟩ := exists_node_of_below sound below less
  exact ⟨less, plan.noBody c looked, m, hm, sound.kind_ne_file hm below less⟩

theorem visits (sound : t.Sound) (hn : t.nodes[i]? = some n) (notFile : n.kind ≠ .sourceFile)
    (whole : ¬t.IsFunctionBody i) : Visits t i := by
  induction i using Nat.strongRecOn generalizing n with
  | ind i ih =>
    intro s lacks ready
    obtain ⟨p, steps, plan⟩ := sound.exists_plan hn notFile whole
    have each (c : Nat) (looked : c ∈ p.visited) : Visits t c := by
      obtain ⟨less, other, m, hm, notFile⟩ := looked_spec sound plan looked
      exact ih c less hm notFile other
    have free (c : Nat) (looked : c ∈ p.visited) : s.Lacks (t.Below c) :=
      fun id scope there below => lacks id scope there ((plan.below c looked).1.trans below)
    have isOuter {c : Nat} (looked : some c ∈ p.outer) := Plan.mem_visited.2 (.inl looked)
    have isInner {c : Nat} (looked : some c ∈ p.inner) := Plan.mem_visited.2 (.inr looked)
    have split_ : p.visited = p.outer.filterMap id ++ p.inner.filterMap id := List.filterMap_append
    have apart := plan.apart
    rw [split_, List.pairwise_append] at apart
    obtain ⟨apartOuter, -, between⟩ := apart
    have first := ready.builds_declarations hn
    obtain ⟨s₁, runs, builds⟩ := runs_visits (l := p.outer)
      (fun c looked => each c (isOuter looked)) apartOuter
      (fun c looked => first.lacks (free c (isOuter looked)) (by simp))
      fun c looked => (ready.outer sound hn plan looked).of_builds first
    have before := first.trans builds
    -- the parts before the scope have smaller numbers than the node, so its scope is still to come
    have new : s₁.Lacks (· = i) := by
      refine before.lacks (fun id scope there same => lacks id scope there (same ▸ .self)) ?_
      rintro d (no | ⟨c, looked, below⟩) rfl
      · exact no
      · have := below.le sound
        have := (plan.below c (isOuter looked)).2
        omega
    obtain ⟨s₂, runs', builds'⟩ := runs_opened sound hn whole plan each
      (.inl (ready.of_builds before)) new fun c looked => before.lacks (free c (isInner looked)) <| by
        rintro d (no | ⟨a, looked', below⟩) below'
        · exact no
        · exact between a (by simpa using looked') c (by simpa using looked) d below below'
    have room := plan.stepsBelow_le sound
    rw [steps, Plan.steps, split_, List.map_append, List.sum_append, List.length_append,
      List.length_map] at room
    have all : Runs t (t.steps i) (t.stepsBelow i) (s.declareAll t (t.declarations i)) s₂ := by
      rw [steps]
      exact (runs.append runs').mono (by omega)
    refine ⟨s₂, runs_step _ all, (before.trans builds').imp ?_ fun o x => ?_⟩
    · rintro d ((no | ⟨c, looked, below⟩) | rfl | ⟨c, looked, below⟩)
      · cases no
      · exact (plan.below c (isOuter looked)).1.trans below
      · exact .self
      · exact (plan.below c (isInner looked)).1.trans below
    · rw [plan.declaresBelow]
      simp only [Plan.mem_visited, or_and_right, exists_or]
      exact or_or_or_comm

/-! ### The whole text -/

theorem empty_scope? (id : ScopeId) : empty.scope? id = none := rfl

theorem empty_lacks (nodes : Nat → Prop) : empty.Lacks nodes := by
  intro id scope there
  rw [empty_scope?] at there
  cases there

theorem leads_ofTree (sound : t.Sound) (hn : t.nodes[i]? = some n) (file : n.kind = .sourceFile)
    {statements : NodeList} {endOfFile : Child} {fileName : String}
    (hc : t.Construct i n (.sourceFile statements endOfFile fileName)) :
    (∃ steps, Leads t steps (BindStep.ofFile i statements) .empty [] (ofTree t (some i))) ∧
      Grows .empty (ofTree t (some i))
        (fun d => d = i ∨ ∃ c, some c ∈ statements.nodes ∧ t.Below c d) (fun o x =>
          (o = i ∧ ∃ e ∈ t.innerDeclarations i, t.identifierText? (some e.name) = some x) ∨
            ∃ c, some c ∈ statements.nodes ∧ t.DeclaresBelow c o x) := by
  have plan := Tree.plans_file sound hn hc file
  have each (c : Nat) (looked : c ∈ Plan.visited ⟨[], some .sourceFile, statements.nodes⟩) :
      Visits t c := by
    obtain ⟨-, other, m, hm, notFile⟩ := looked_spec sound plan looked
    exact visits sound hm notFile other
  have whole : ¬t.IsFunctionBody i :=
    Tree.not_isFunctionBody_of_kind hn (by rw [file]; decide)
  obtain ⟨s, runs, builds⟩ := runs_opened sound hn whole plan each (.inr (by rw [file]; rfl))
    (empty_lacks _) fun c _ => empty_lacks _
  have result : ofTree t (some i) = s := by
    unfold ofTree
    rw [hc.node_record hn]
    refine runs.result ?_
    -- all nodes together add no more steps to the walk than its bound allows for
    have low := plan.stepsBelow_le sound
    have there : i < t.size := Tree.lt_size_of_node hn
    have all := sound.weightBelow_le (fun d => (t.steps d).length) there
    have first : BindStep.ofFile i statements =
        Plan.opened ⟨[], some .sourceFile, statements.nodes⟩ i := rfl
    unfold Tree.walkBound
    rw [first]
    refine Nat.le_trans ?_ (Nat.le_mul_of_pos_right _ (by decide))
    change ((statements.nodes.filterMap id).map t.stepsBelow).sum + _ ≤ _ at low
    change ((statements.nodes.filterMap id).map t.stepsBelow).sum + _ ≤ _
    unfold Tree.stepsBelow at low ⊢
    omega
  rw [result]
  obtain ⟨steps, -, leads⟩ := runs.leads
  exact ⟨⟨steps, leads⟩, builds.toGrows⟩

/-- Binding a text makes the scopes of its nodes, each once, with the names declared there. -/
theorem ofTree_spec (sound : t.Sound) (hn : t.nodes[i]? = some n) (file : n.kind = .sourceFile) :
    (ofTree t (some i)).Once ∧
      ∀ c x, (ofTree t (some i)).Has c x ↔ t.DeclaresBelow i c x := by
  obtain ⟨r, hc, shape⟩ := sound.construct_of_shape hn (congrArg NodeKind.shape? file)
  cases r <;> cases shape
  next statements endOfFile fileName =>
  have plan := Tree.plans_file sound hn hc file
  obtain ⟨-, grows⟩ := leads_ofTree sound hn file hc
  refine ⟨grows.once fun id _ scope _ there => ?_, fun c x => ?_⟩
  · rw [empty_scope?] at there
    cases there
  · rw [grows.has, plan.declaresBelow, Tree.DeclaresIn, (Tree.silent_of_kind hn (by rw [file]; rfl)).1]
    simp [Has, empty_scope?, Plan.mem_visited]

end Scopes

end PathGuard
