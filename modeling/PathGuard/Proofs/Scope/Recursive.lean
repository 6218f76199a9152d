import PathGuard.Proofs.Scope.Open
/-!
# The walk and the recursion

The walk keeps a stack of steps, and closes a scope by a step that lies below those of the parts. A
recursion needs no such steps: it makes the declarations of a node, goes into the nodes before the
scope, opens the scope, goes into the nodes inside, and closes it. Both come to the same scopes from
any that there were before, and leave the same scope open.
-/

namespace PathGuard

namespace Tree

variable {t : Tree}

/-! ### What plans look at -/

theorem steps_of_file {i : NodeId} {n : Node} (hn : t.nodes[i]? = some n)
    (file : n.kind = .sourceFile) :
    t.steps i = (Plan.mk ((t.children (some i)).map some) none []).steps i := by
  have parts : t.steps i = (t.children (some i)).map (BindStep.visit ∘ some) := by
    unfold steps
    rw [node?_some, hn]
    simp only [file]
  rw [parts, ← List.map_map]
  exact (List.append_nil _).symm

theorem steps_of_block {i : NodeId} {n : Node} (hn : t.nodes[i]? = some n)
    (block : n.kind = .block) :
    t.steps i = (Plan.mk [] (some .block) ((t.children (some i)).map some)).steps i := by
  have container : t.steps i = t.containerSteps .block i := by
    unfold steps
    rw [node?_some, hn]
    simp only [block]
  rw [container, containerSteps_eq]
  rfl

theorem Sound.planOf_spec (sound : t.Sound) (i : NodeId) :
    (∀ c ∈ (t.planOf i).visited, t.Below i c ∧ c < i) ∧
      (t.planOf i).visited.Pairwise t.Separate := by
  -- a whole text, and a block that is looked at by itself, have all their parts in their plans
  have parts {p : Plan} (same : t.planOf i = p)
      (all : p.outer ++ p.inner = (t.children (some i)).map some) :
      (∀ c ∈ (t.planOf i).visited, t.Below i c ∧ c < i) ∧
        (t.planOf i).visited.Pairwise t.Separate := by
    have visited : (t.planOf i).visited = t.children (some i) := by
      rw [same, Plan.visited, all]
      simp
    rw [visited]
    refine ⟨fun c part => ⟨.of_child part .self, sound.child_lt part⟩, ?_⟩
    exact separate_of_children sound (sound.children_nodup i) fun c part => part
  cases hn : t.nodes[i]? with
  | none =>
    have nothing : t.steps i = [] := by
      unfold steps
      rw [node?_some, hn]
    have same : t.planOf i = ⟨[], none, []⟩ := planOf_eq nothing fun _ => rfl
    rw [same]
    exact ⟨fun c looked => absurd looked List.not_mem_nil, .nil⟩
  | some n =>
    by_cases file : n.kind = .sourceFile
    · exact parts (planOf_eq (steps_of_file hn file) fun _ => rfl) (List.append_nil _)
    · by_cases body : t.IsFunctionBody i
      · obtain ⟨-, -, n', -, -, -, hn', block⟩ := body
        exact parts (planOf_eq (steps_of_block hn' block) (by simp)) rfl
      · obtain ⟨p, steps, plan⟩ := sound.exists_plan hn file body
        rw [planOf_eq steps fun shut => (plan.shut shut).1]
        exact ⟨plan.below, plan.apart⟩

theorem Sound.stepsBelow_le (sound : t.Sound) (i : NodeId) :
    t.stepsBelow i ≤ t.totalOf fun d => (t.steps d).length := by
  by_cases there : i < t.size
  · exact sound.weightBelow_le _ there
  · have none_ : t.nodes[i]? = none := Array.getElem?_eq_none (Nat.le_of_not_lt there)
    have nothing : t.stepsBelow i = 0 := by
      rw [stepsBelow, weightBelow, sound.preorder_eq]
      simp [children, steps, node?_some, none_]
    rw [nothing]
    exact Nat.zero_le _

end Tree

namespace Scopes

/-! ### The recursion -/

/-- Follows a plan: goes into the nodes before the scope, opens the scope, with what its node
declares inside, goes into the nodes inside, and closes the scope. -/
def follow (s : Scopes) (t : Tree) (i : NodeId) (p : Plan) (into : Child → Scopes → Scopes) :
    Scopes :=
  let s := p.outer.foldl (fun s c => into c s) s
  match p.opens with
  | none => s
  | some kind => (p.inner.foldl (fun s c => into c s) (s.enterNode t kind i)).leave

def bindWithin (t : Tree) : (depth : Nat) → Child → Scopes → Scopes
  | 0, _, s => s
  | _ + 1, none, s => s
  | depth + 1, some i, s =>
    (s.declareAll t (t.declarations i)).follow t i (t.planOf i) (bindWithin t depth)

def bindBelow (t : Tree) : Child → Scopes → Scopes
  | none, s => s
  | some i, s => bindWithin t (i + 1) (some i) s

variable {t : Tree} {s s' : Scopes} {p : Plan} {into into' : Child → Scopes → Scopes}

theorem follow_congr (nothing : into none = into' none)
    (same : ∀ c ∈ p.visited, into (some c) = into' (some c)) (i : NodeId) :
    s.follow t i p into = s.follow t i p into' := by
  have each (l : List Child) (visited : ∀ c, some c ∈ l → c ∈ p.visited) (s : Scopes) :
      l.foldl (fun s c => into c s) s = l.foldl (fun s c => into' c s) s := by
    refine List.foldl_ext _ _ s fun s c looked => ?_
    cases c with
    | none => rw [nothing]
    | some c => rw [same c (visited c looked)]
  have outer (s : Scopes) := each p.outer (fun c looked => Plan.mem_visited.2 (.inl looked)) s
  have inner (s : Scopes) := each p.inner (fun c looked => Plan.mem_visited.2 (.inr looked)) s
  unfold follow
  simp only [outer, inner]

theorem bindWithin_none (t : Tree) (depth : Nat) : bindWithin t depth none = bindBelow t none := by
  funext s
  cases depth <;> rfl

theorem bindWithin_eq (sound : t.Sound) {depth i : Nat} (enough : i < depth) :
    bindWithin t depth (some i) = bindBelow t (some i) := by
  induction i using Nat.strongRecOn generalizing depth with
  | ind i ih =>
    obtain ⟨depth, rfl⟩ := Nat.exists_eq_add_of_lt enough
    funext s
    refine follow_congr ?_ (fun c looked => ?_) i
    · rw [bindWithin_none, bindWithin_none]
    · have less := ((sound.planOf_spec i).1 c looked).2
      rw [ih c less (by omega), ih c less less]

/-- The recursion without a bound: the declarations of the node, then its plan. -/
theorem bindBelow_eq (sound : t.Sound) (i : NodeId) (s : Scopes) :
    bindBelow t (some i) s =
      (s.declareAll t (t.declarations i)).follow t i (t.planOf i) (bindBelow t) := by
  refine follow_congr ?_ (fun c looked => ?_) i
  · exact bindWithin_none t i
  · exact bindWithin_eq sound ((sound.planOf_spec i).1 c looked).2

/-! ### What is open around the recursion -/

structure Restores (s s' : Scopes) : Prop where
  current : s'.current = s.current
  keeps : s.Keeps s'

theorem Restores.refl (s : Scopes) : s.Restores s := ⟨rfl, fun _ _ there => there⟩

theorem Restores.trans {s'' : Scopes} (h : s.Restores s') (h' : s'.Restores s'') :
    s.Restores s'' := ⟨h'.current.trans h.current, h.keeps.trans h'.keeps⟩

theorem restores_foldl (each : ∀ c (s : Scopes), s.Restores (into c s)) (l : List Child)
    (s : Scopes) : s.Restores (l.foldl (fun s c => into c s) s) := by
  induction l generalizing s with
  | nil => exact .refl s
  | cons c l ih => exact (each c s).trans (ih _)

theorem Restores.leave {kind : ScopeKind} {i : NodeId}
    (inside : (s.enterNode t kind i).Restores s') :
    s'.current = some s.scopes.size ∧ s'.place? s.scopes.size = some (s.current, i) ∧
      s.Restores s'.leave := by
  obtain ⟨isOpen, places, -⟩ := enterNode_place s t kind i
  have current : s'.current = some s.scopes.size := inside.current.trans isOpen
  have lies : s'.place? s.scopes.size = some (s.current, i) := by
    apply inside.keeps
    rw [places, if_pos rfl]
  obtain ⟨scope, there, parent, -⟩ := scope?_of_place? lies
  refine ⟨current, lies, (leave_current current there).trans parent, ?_⟩
  have entered : s.Keeps (s.enterNode t kind i) := keeps_step s t (.enter kind i)
  exact (entered.trans inside.keeps).trans (keeps_step s' t .leave)

theorem restores_follow (each : ∀ c (s : Scopes), s.Restores (into c s)) (s : Scopes) (i : NodeId)
    (p : Plan) : s.Restores (s.follow t i p into) := by
  have outer := restores_foldl each p.outer s
  unfold follow
  cases p.opens with
  | none => exact outer
  | some kind =>
    have inner := restores_foldl each p.inner
      ((p.outer.foldl (fun s c => into c s) s).enterNode t kind i)
    exact outer.trans inner.leave.2.2

theorem restores_bindWithin (t : Tree) (depth : Nat) (c : Child) (s : Scopes) :
    s.Restores (bindWithin t depth c s) := by
  induction depth generalizing c s with
  | zero => exact .refl s
  | succ depth ih =>
    cases c with
    | none => exact .refl s
    | some i =>
      have declared := alike_declareAll s t (t.declarations i)
      exact .trans ⟨declared.current, declared.keeps⟩ (restores_follow ih _ i _)

theorem restores_bindBelow (t : Tree) (c : Child) (s : Scopes) : s.Restores (bindBelow t c s) := by
  cases c with
  | none => exact .refl s
  | some i => exact restores_bindWithin t (i + 1) (some i) s

/-! ### The walk does what the recursion does -/

/-- Whether the walk, when it looks at a node, does what is said in at most `bound` steps. -/
def Walks (t : Tree) (into : Child → Scopes → Scopes) (bound : Nat → Nat) (c : Child) : Prop :=
  ∀ s, Runs t [.visit c] (1 + (c.map bound).getD 0) s (into c s)

theorem walks_none {bound : Nat → Nat} (nothing : ∀ s, into none s = s) :
    Walks t into bound none := by
  intro s
  rw [nothing]
  exact runs_step (.visit none) (runs_nil t s)

theorem runs_foldl {bound : Nat → Nat} {l : List Child} (each : ∀ c ∈ l, Walks t into bound c)
    (s : Scopes) : Runs t (l.map .visit) (((l.filterMap id).map bound).sum + l.length) s
      (l.foldl (fun s c => into c s) s) := by
  induction l generalizing s with
  | nil => exact runs_nil t s
  | cons c l ih =>
    have first := each c (List.mem_cons_self ..) s
    have rest := ih (fun c looked => each c (List.mem_cons_of_mem _ looked)) (into c s)
    refine (first.append rest).mono ?_
    cases c with
    | none => simp; omega
    | some c => simp; omega

theorem runs_follow {bound : Nat → Nat} (nothing : ∀ s, into none s = s)
    (each : ∀ c ∈ p.visited, Walks t into bound (some c)) (s : Scopes) (i : NodeId) :
    Runs t (p.steps i) ((p.visited.map bound).sum + (p.steps i).length) s
      (s.follow t i p into) := by
  have walks (c : Child) (looked : c ∈ p.outer ++ p.inner) : Walks t into bound c := by
    cases c with
    | none => exact walks_none nothing
    | some c => exact each c (List.mem_filterMap.2 ⟨_, looked, rfl⟩)
  have outer := runs_foldl (fun c looked => walks c (List.mem_append_left _ looked)) s
  have inner := runs_foldl (l := p.inner) fun c looked => walks c (List.mem_append_right _ looked)
  have sums : (p.visited.map bound).sum = ((p.outer.filterMap id).map bound).sum +
      ((p.inner.filterMap id).map bound).sum := by
    rw [Plan.visited, List.filterMap_append, List.map_append, List.sum_append]
  unfold Plan.steps Plan.opened follow
  cases p.opens with
  | none =>
    simp only [List.append_nil, List.length_map]
    exact outer.mono (by omega)
  | some kind =>
    generalize p.outer.foldl (fun s c => into c s) s = s₁ at outer ⊢
    have enter : Runs t [.enter kind i] 1 s₁ (s₁.enterNode t kind i) :=
      runs_step _ (runs_nil t _)
    have leave (s : Scopes) : Runs t [.leave] 1 s s.leave := runs_step _ (runs_nil t _)
    have inside := (enter.append (inner (s₁.enterNode t kind i))).append (leave _)
    refine (outer.append inside).mono ?_
    simp only [scopeSteps, List.length_append, List.length_cons, List.length_map, List.length_nil]
    omega

theorem walks_bindBelow (sound : t.Sound) (i : NodeId) :
    Walks t (bindBelow t) t.stepsBelow (some i) := by
  -- What a plan looks at has smaller numbers than its node.
  induction i using Nat.strongRecOn with
  | ind i ih =>
    intro s
    obtain ⟨inside, apart⟩ := sound.planOf_spec i
    have room := sound.sum_stepsBelow_le inside apart
    have plan := runs_follow (p := t.planOf i) (fun _ => rfl)
      (fun c looked => ih c (inside c looked).2) (s.declareAll t (t.declarations i)) i
    rw [← t.steps_eq_planOf i] at plan
    rw [bindBelow_eq sound]
    exact (runs_step (.visit (some i)) (plan.mono room)).mono (Nat.le_of_eq (Nat.add_comm ..))

/-! ### Scopes that are opened are closed -/

/-- Whether behind every step that opens a scope stand the nodes inside of it, and then the step
that closes it. -/
inductive Bracketed : List BindStep → Prop where
  | nil : Bracketed []
  | visit {c : Child} {rest : List BindStep} (more : Bracketed rest) : Bracketed (.visit c :: rest)
  | enter {kind : ScopeKind} {i : NodeId} {rest : List BindStep} (inner : List Child)
      (more : Bracketed (inner.map .visit ++ .leave :: rest)) :
      Bracketed (.enter kind i :: (inner.map .visit ++ .leave :: rest))
  | leave {rest : List BindStep} (more : Bracketed rest) : Bracketed (.leave :: rest)

theorem bracketed_visits {rest : List BindStep} (more : Bracketed rest) (l : List Child) :
    Bracketed (l.map .visit ++ rest) := by
  induction l with
  | nil => exact more
  | cons c l ih => exact .visit ih

theorem bracketed_steps {rest : List BindStep} (more : Bracketed rest) (t : Tree) (i : NodeId) :
    Bracketed (t.steps i ++ rest) := by
  rw [t.steps_eq_planOf i, Plan.steps, List.append_assoc]
  apply bracketed_visits
  unfold Plan.opened
  split
  · exact more
  · next kind _ =>
    rw [scopeSteps, List.cons_append, List.append_assoc]
    exact .enter _ (bracketed_visits (.leave more) _)

theorem Bracketed.step {next : BindStep} {rest : List BindStep} (h : Bracketed (next :: rest))
    (t : Tree) (s : Scopes) : Bracketed ((s.step t next).1 ++ rest) := by
  cases h with
  | @visit c _ more =>
    cases c with
    | none => exact more
    | some i => exact bracketed_steps more t i
  | enter inner more => exact more
  | leave more => exact more

theorem Bracketed.leads {l l' : List BindStep} {n : Nat} (h : Bracketed l)
    (leads : Leads t n l s l' s') : Bracketed l' := by
  induction leads with
  | here => exact h
  | step onwards ih => exact ih (h.step t _)

theorem Bracketed.matched {kind : ScopeKind} {i : NodeId} {rest : List BindStep}
    (h : Bracketed (.enter kind i :: rest)) (sound : t.Sound) (s : Scopes) :
    ∃ (inner : List Child) (rest' : List BindStep) (n : Nat) (s' : Scopes),
      rest = inner.map .visit ++ .leave :: rest' ∧
      (∀ after, Leads t n (inner.map .visit ++ after) (s.enterNode t kind i) after s') ∧
      s'.current = some s.scopes.size ∧
      s'.place? s.scopes.size = some (s.current, i) ∧ s'.leave.current = s.current := by
  cases h with
  | @enter _ _ rest' inner more =>
  have walks (c : Child) : Walks t (bindBelow t) t.stepsBelow c := by
    cases c with
    | none => exact walks_none fun _ => rfl
    | some c => exact walks_bindBelow sound c
  obtain ⟨n, -, runs⟩ := runs_foldl (l := inner) (fun c _ => walks c) (s.enterNode t kind i)
  have inside := restores_foldl (restores_bindBelow t) inner (s.enterNode t kind i)
  obtain ⟨current, lies, outside, -⟩ := inside.leave
  exact ⟨inner, rest', n, _, rfl, runs, current, lies, outside⟩

/-! ### Every node of a text -/

/-- Whether the walk that looks at a node is the recursion. The recursion makes the declarations of
the node and follows its plan, which has the steps of the node. The walk comes to the end of what it
adds to the stack, with the scopes of the recursion, and with the bound on its steps or more room it
is not cut off. Every scope that it opens on the way is closed by its own step, and in the end the
scope is open that was open before. -/
structure IsRecursion (t : Tree) (i : NodeId) (s : Scopes) : Prop where
  steps : t.steps i = (t.planOf i).steps i
  recursion : bindBelow t (some i) s =
    (s.declareAll t (t.declarations i)).follow t i (t.planOf i) (bindBelow t)
  ends : ∃ n, ∀ rest, Leads t n (.visit (some i) :: rest) s rest (bindBelow t (some i) s)
  result : ∀ fuel ≥ t.walkBound 1 fun d => (t.steps d).length,
    runWithin t fuel [.visit (some i)] s = bindBelow t (some i) s
  matched : ∀ {n : Nat} {kind : ScopeKind} {j : NodeId} {rest : List BindStep} {s₁ : Scopes},
    Leads t n [.visit (some i)] s (.enter kind j :: rest) s₁ →
    ∃ (inner : List Child) (rest' : List BindStep) (m : Nat) (s₂ : Scopes),
      rest = inner.map .visit ++ .leave :: rest' ∧
      (∀ after, Leads t m (inner.map .visit ++ after) (s₁.enterNode t kind j) after s₂) ∧
      s₂.current = some s₁.scopes.size ∧
      s₂.place? s₁.scopes.size = some (s₁.current, j) ∧ s₂.leave.current = s₁.current
  current : (runWithin t (t.walkBound 1 fun d => (t.steps d).length) [.visit (some i)] s).current =
    s.current

theorem isRecursion (sound : t.Sound) (i : NodeId) (s : Scopes) : IsRecursion t i s := by
  have walk := walks_bindBelow sound i s
  have enough : 1 + t.stepsBelow i ≤ t.walkBound 1 fun d => (t.steps d).length := by
    have all := sound.stepsBelow_le i
    unfold Tree.walkBound
    exact Nat.le_trans (by omega) (Nat.le_mul_of_pos_right _ (by decide))
  have result (fuel : Nat) (room : fuel ≥ t.walkBound 1 fun d => (t.steps d).length) :
      runWithin t fuel [.visit (some i)] s = bindBelow t (some i) s :=
    walk.result (Nat.le_trans enough room)
  obtain ⟨n, -, leads⟩ := walk
  exact {
    steps := t.steps_eq_planOf i
    recursion := bindBelow_eq sound i s
    ends := ⟨n, leads⟩
    result := result
    matched := by
      intro m kind j rest s₁ way
      exact (Bracketed.leads (.visit .nil) way).matched sound s₁
    current := by
      rw [result _ (Nat.le_refl _)]
      exact (restores_bindBelow t (some i) s).current }

theorem ofTree_eq_follow (sound : t.Sound) {i : Nat} {n : Node} (hn : t.nodes[i]? = some n)
    (file : n.kind = .sourceFile) {statements : NodeList} {endOfFile : Child} {fileName : String}
    (construct : t.Construct i n (.sourceFile statements endOfFile fileName)) :
    ofTree t (some i) =
      empty.follow t i ⟨[], some .sourceFile, statements.nodes⟩ (bindBelow t) := by
  obtain ⟨⟨m, leads⟩, -⟩ := leads_ofTree sound hn file construct
  have walk := runs_follow (p := ⟨[], some .sourceFile, statements.nodes⟩)
    (fun _ => rfl) (fun c _ => walks_bindBelow sound c) empty i
  obtain ⟨k, -, leads'⟩ := walk.leads
  calc
    ofTree t (some i) = runWithin t (m + k) (BindStep.ofFile i statements) empty :=
      (leads.runWithin_eq k).symm
    _ = runWithin t (k + m) (BindStep.ofFile i statements) empty := by rw [Nat.add_comm]
    _ = _ := leads'.runWithin_eq m

end Scopes

theorem parseFile_scopes_eq_follow (fileName source : String) :
    let file := parseFile fileName source
    ∃ root statements endOfFile name, file.root = some root ∧
      file.tree.recordAt? file.root = some (.sourceFile statements endOfFile name) ∧
      file.scopes = Scopes.empty.follow file.tree root ⟨[], some .sourceFile, statements.nodes⟩
        (Scopes.bindBelow file.tree) := by
  obtain ⟨sound, root, n, isRoot, hn, kind, -⟩ := parseFile_sound fileName source
  obtain ⟨r, construct, shape⟩ := sound.construct_of_shape hn (congrArg NodeKind.shape? kind)
  cases r <;> cases shape
  next statements endOfFile name =>
  refine ⟨root, statements, endOfFile, name, isRoot, ?_, ?_⟩
  · rw [isRoot]
    exact construct.node_record hn
  · rw [ParsedFile.scopes, isRoot]
    exact Scopes.ofTree_eq_follow sound hn kind construct

/-- Looking at any node of a text, from any scopes, is the recursion, also where the text has syntax
problems. -/
theorem parseFile_isRecursion (fileName source : String) (i : NodeId) (s : Scopes) :
    Scopes.IsRecursion (parseFile fileName source).tree i s :=
  Scopes.isRecursion (parseFile_sound fileName source).tree i s

/-- The scope of a block without statements is closed again. -/
theorem parseFile_isRecursion_block :
    let t := (parseFile "a.js" "{}").tree
    t.steps 0 = [.enter .block 0, .leave] ∧
      ∃ n s, Scopes.Leads t n [.enter .block 0, .leave] .empty [.leave] s ∧
        s.place? 0 = some (none, 0) ∧ s.current = some 0 ∧ s.leave.current = none := by
  intro t
  have steps : t.steps 0 = [.enter .block 0, .leave] := by decide +kernel
  have nothing : t.declarations 0 = [] := by decide +kernel
  have next : Scopes.empty.step t (.visit (some 0)) = ([.enter .block 0, .leave], .empty) := by
    rw [Scopes.step, steps, nothing]
    rfl
  have way : Scopes.Leads t 1 [.visit (some 0)] .empty [.enter .block 0, .leave] .empty := by
    refine .step ?_
    rw [next]
    exact .here
  obtain ⟨inner, rest, m, s, split, leads, current, lies, closed⟩ :=
    (parseFile_isRecursion "a.js" "{}" 0 .empty).matched way
  cases inner with
  | nil => exact ⟨steps, m + 1, s, .step (leads [.leave]), lies, current, closed⟩
  | cons c inner => cases split

end PathGuard
