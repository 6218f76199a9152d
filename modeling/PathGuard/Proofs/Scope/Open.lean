import PathGuard.Proofs.Scope.Contents
/-!
# Which scope is open

The walk opens and closes scopes in the order of its steps, while a lookup climbs from a node to the
first one that has a scope. Both come to the same scope, except in the name of a method: the walk
looks at it before the scope of the method is opened, but the name is a part of the method.
-/

namespace PathGuard

namespace Tree

variable {t : Tree} {b c i j o : Nat}

/-! ### Names of methods -/

theorem NamedOutside.owns (name : t.NamedOutside i c) : t.OwnsScope i := by
  cases hn : t.nodes[i]? with
  | none => simp [NamedOutside, outsideName, kind?, node?_some, hn] at name
  | some n =>
  have outside := ((namedOutside_iff hn).1 name).1
  simp only [NodeKind.isNamedOutside, Bool.and_eq_true] at outside
  exact ownsScope_of_isFunction hn outside.1.1

theorem InName.nearest (h : t.InName c i) : t.Nearest t.OwnsScope c i := by
  induction h with
  | here parent name => exact .here parent name.owns
  | further parent not rest ih => exact .further parent not ih

theorem LookedIn.of_inName (h : t.InName c i) (looked : t.LookedIn c o) : t.LookedIn i o := by
  induction h with
  | here parent name =>
    cases looked with
    | inside parent' owns notName =>
      obtain rfl := Option.some.inj (parent.symm.trans parent')
      exact absurd name notName
    | named parent' name' rest => exact Option.some.inj (parent'.symm.trans parent) ▸ rest
    | further parent' not rest =>
      obtain rfl := Option.some.inj (parent.symm.trans parent')
      exact absurd name.owns not
  | further parent not rest ih =>
    cases looked with
    | inside parent' owns notName =>
      obtain rfl := Option.some.inj (parent.symm.trans parent')
      exact absurd owns not
    | named parent' name' rest' =>
      obtain rfl := Option.some.inj (parent.symm.trans parent')
      exact absurd name'.owns not
    | further parent' not' rest' =>
      obtain rfl := Option.some.inj (parent.symm.trans parent')
      exact ih rest'

theorem LookedIn.nearest (looked : t.LookedIn c o) (outside : ∀ i, ¬t.InName c i) :
    t.Nearest t.OwnsScope c o := by
  induction looked with
  | inside parent owns notName => exact .here parent owns
  | named parent name rest => exact absurd (.here parent name) (outside _)
  | further parent not rest ih =>
    exact .further parent not (ih fun i inName => outside i (.further parent not inName))

theorem Sound.parent_lt (sound : t.Sound) (parent : t.parent (some c) = some i) : c < i :=
  sound.child_lt (sound.mem_children.2 parent)

theorem Nearest.lt (sound : t.Sound) {P : Nat → Prop} (near : t.Nearest P c o) : c < o := by
  induction near with
  | here parent holds => exact sound.parent_lt parent
  | further parent not rest ih => exact Nat.lt_trans (sound.parent_lt parent) ih

theorem LookedIn.lt (sound : t.Sound) (looked : t.LookedIn c o) : c < o := by
  induction looked with
  | inside parent owns notName => exact sound.parent_lt parent
  | named parent name rest ih => exact Nat.lt_trans (sound.parent_lt parent) ih
  | further parent not rest ih => exact Nat.lt_trans (sound.parent_lt parent) ih

theorem LookedIn.unique (looked : t.LookedIn c o) {o' : Nat} (looked' : t.LookedIn c o') :
    o = o' := by
  induction looked with
  | inside parent owns notName =>
    cases looked' with
    | inside parent' owns' notName' => exact Option.some.inj (parent.symm.trans parent')
    | named parent' name rest =>
      obtain rfl := Option.some.inj (parent.symm.trans parent')
      exact absurd name notName
    | further parent' not rest =>
      obtain rfl := Option.some.inj (parent.symm.trans parent')
      exact absurd owns not
  | named parent name rest ih => exact ih (.of_inName (.here parent name) looked')
  | further parent not rest ih =>
    cases looked' with
    | inside parent' owns notName =>
      obtain rfl := Option.some.inj (parent.symm.trans parent')
      exact absurd owns not
    | named parent' name rest' =>
      obtain rfl := Option.some.inj (parent.symm.trans parent')
      exact absurd name.owns not
    | further parent' not' rest' =>
      obtain rfl := Option.some.inj (parent.symm.trans parent')
      exact ih rest'

theorem Sound.sharedBody?_spec (sound : t.Sound) (shared : t.sharedBody? i = some b) :
    t.parent (some b) = some i ∧ t.IsFunctionBody b ∧ t.OwnsScope i := by
  unfold sharedBody? at shared
  split at shared
  · cases shared
  · next record _ =>
    split at shared
    · next block =>
      subst shared
      obtain ⟨i', n, same, hn, hc⟩ := sound.construct_of_recordAt? record
      rw [Option.some.injEq] at same
      subst same
      have function : n.kind.isFunction = true := isFunction_of_shape hc.layout.shape
      have owned := hc.owns b (by simp [Record.parts])
      obtain ⟨m, hm, kind⟩ := node_of_kind? block
      exact ⟨owned, ⟨i, n, m, owned, hn, function, hm, kind⟩, ownsScope_of_isFunction hn function⟩
    · cases shared
  · cases shared

end Tree

namespace Scopes

/-! ### Where scopes lie -/

def place? (s : Scopes) (id : ScopeId) : Option (Option ScopeId × NodeId) :=
  (s.scope? id).map fun scope => (scope.parent, scope.container)

def Keeps (s s' : Scopes) : Prop := ∀ id place, s.place? id = some place → s'.place? id = some place

/-- Whether scopes differ in nothing but the names that they have. -/
structure Alike (s s' : Scopes) : Prop where
  place : ∀ id, s'.place? id = s.place? id
  ofNode : s'.ofNode = s.ofNode
  current : s'.current = s.current

variable {t : Tree} {s s' s'' : Scopes}

theorem Keeps.trans (h : s.Keeps s') (h' : s'.Keeps s'') : s.Keeps s'' :=
  fun id place there => h' id place (h id place there)

theorem Alike.trans (h : Alike s s') (h' : Alike s' s'') : Alike s s'' where
  place id := (h'.place id).trans (h.place id)
  ofNode := h'.ofNode.trans h.ofNode
  current := h'.current.trans h.current

theorem Alike.refl (s : Scopes) : Alike s s := ⟨fun _ => rfl, rfl, rfl⟩

theorem Alike.keeps (h : Alike s s') : s.Keeps s' := fun id _ there => (h.place id).trans there

theorem place?_of_scope? {id : ScopeId} {scope : Scope} (there : s.scope? id = some scope) :
    s.place? id = some (scope.parent, scope.container) := by
  rw [place?, there, Option.map_some]

theorem scope?_of_place? {id : ScopeId} {outer : Option ScopeId} {i : NodeId}
    (there : s.place? id = some (outer, i)) :
    ∃ scope, s.scope? id = some scope ∧ scope.parent = outer ∧ scope.container = i := by
  obtain ⟨scope, found, same⟩ := Option.map_eq_some_iff.1 there
  rw [Prod.mk.injEq] at same
  exact ⟨scope, found, same⟩

theorem alike_declareIn (s : Scopes) (id : ScopeId) (form : DeclarationForm) (name : String)
    (node : NodeId) : Alike s (s.declareIn id form name node) := by
  unfold declareIn
  cases there : s.scope? id with
  | none => exact .refl s
  | some scope =>
    obtain ⟨current, table, -, scopes⟩ := symbolFor_spec there form.bit name
    refine ⟨fun id' => ?_, ?_, current⟩
    · have same := scopes id'
      change Option.map _ ((s.symbolFor id scope form.bit name).2.scope? id') = _
      rw [same]
      split
      · next here => rw [here, place?_of_scope? there, Option.map_some]
      · rfl
    · change (s.symbolFor id scope form.bit name).2.ofNode = _
      unfold symbolFor
      split <;> rfl

theorem alike_declareAll (s : Scopes) (t : Tree) (ds : List Declaration) :
    Alike s (s.declareAll t ds) := by
  induction ds generalizing s with
  | nil => exact .refl s
  | cons d ds ih =>
    have first : Alike s (s.declare t d) := by
      unfold declare
      split
      · exact alike_declareIn ..
      · exact .refl s
    exact first.trans (ih _)

theorem place?_size (s : Scopes) : s.place? s.scopes.size = none := by
  rw [place?, scope?, Array.getElem?_eq_none (Nat.le_refl _), Option.map_none]

theorem place?_enter (s : Scopes) (kind : ScopeKind) (i : NodeId) (id : ScopeId) :
    (s.enter kind i).place? id =
      if id = s.scopes.size then some (s.current, i) else s.place? id := by
  rw [place?, scope?_enter]
  split <;> rfl

theorem enterNode_place (s : Scopes) (t : Tree) (kind : ScopeKind) (i : NodeId) :
    (s.enterNode t kind i).current = some s.scopes.size ∧
      (∀ id, (s.enterNode t kind i).place? id =
        if id = s.scopes.size then some (s.current, i) else s.place? id) ∧
      ∀ j : NodeId, (s.enterNode t kind i).ofNode[j]? =
        if i = j ∨ t.sharedBody? i = some j then some s.scopes.size else s.ofNode[j]? := by
  have declared := alike_declareAll (s.enter kind i) t (t.innerDeclarations i)
  have own (j : NodeId) : ((s.enter kind i).declareAll t (t.innerDeclarations i)).ofNode[j]? =
      if i = j then some s.scopes.size else s.ofNode[j]? := by
    rw [declared.ofNode, enter, Std.TreeMap.getElem?_insert]
    simp only [Std.LawfulEqCmp.compare_eq_iff_eq]
  have current : ((s.enter kind i).declareAll t (t.innerDeclarations i)).current =
      some s.scopes.size := declared.current
  have place (id : ScopeId) := (declared.place id).trans (place?_enter s kind i id)
  unfold enterNode
  cases shared : t.sharedBody? i with
  | none => exact ⟨current, place, by simpa using own⟩
  | some body =>
    simp only [shareCurrent, current]
    refine ⟨trivial, place, fun j => ?_⟩
    rw [Std.TreeMap.getElem?_insert, own]
    simp only [Std.LawfulEqCmp.compare_eq_iff_eq, Option.some.injEq]
    split
    · next same => rw [if_pos (.inr same)]
    · next other => simp only [other, or_false]

theorem alike_leave (s : Scopes) :
    (∀ id, s.leave.place? id = s.place? id) ∧ s.leave.ofNode = s.ofNode := by
  unfold leave
  split <;> exact ⟨fun _ => rfl, rfl⟩

theorem keeps_step (s : Scopes) (t : Tree) (next : BindStep) : s.Keeps (s.step t next).2 := by
  intro id place there
  cases next with
  | visit c =>
    cases c with
    | none => exact there
    | some c => exact (alike_declareAll ..).keeps id place there
  | enter kind i =>
    obtain ⟨-, places, -⟩ := enterNode_place s t kind i
    refine (places id).trans ?_
    split
    · next last =>
      rw [last, place?_size] at there
      cases there
    · exact there
  | leave => exact ((alike_leave s).1 id).trans there

theorem Leads.keeps {n : Nat} {l l' : List BindStep} (h : Leads t n l s l' s') : s.Keeps s' := by
  induction h with
  | here => exact fun _ _ there => there
  | step onwards ih => exact Keeps.trans (keeps_step _ _ _) ih

theorem Leads.enters {n : Nat} {l : List BindStep} (h : Leads t n l s [] s') {kind : ScopeKind}
    {i : NodeId} (waits : .enter kind i ∈ l) : ∃ id outer, s'.place? id = some (outer, i) := by
  generalize ended : ([] : List BindStep) = l' at h
  induction h with
  | here =>
    subst ended
    cases waits
  | @step next rest _ s _ _ onwards ih =>
    rcases List.mem_cons.1 waits with rfl | later
    · obtain ⟨-, places, -⟩ := enterNode_place s t kind i
      have made := places s.scopes.size
      rw [if_pos rfl] at made
      exact ⟨_, _, onwards.keeps _ _ made⟩
    · exact ih (List.mem_append_right _ later) ended

/-! ### The invariant of the walk -/

/-- Whether the scopes lie as the nodes that they belong to do, and every such node, and the block
that shares its scope, finds the scope. -/
structure Nested (s : Scopes) (t : Tree) : Prop where
  found : ∀ j id, s.ofNode[j]? = some id →
    ∃ outer i, s.place? id = some (outer, i) ∧ (i = j ∨ t.sharedBody? i = some j)
  known : ∀ id outer i, s.place? id = some (outer, i) → ∃ id', s.ofNode[i]? = some id'
  owns : ∀ id outer i, s.place? id = some (outer, i) → t.OwnsScope i
  outer : ∀ id outer i, s.place? id = some (outer, i) → ∀ o, t.LookedIn i o →
    ∃ id' far, outer = some id' ∧ s.place? id' = some (far, o)

/-- Whether the scopes of some nodes, the innermost first, are those that are open. -/
inductive Opened (s : Scopes) : Option ScopeId → List NodeId → Prop where
  | nil : Opened s none []
  | cons {id : ScopeId} {outer : Option ScopeId} {o : NodeId} {os : List NodeId}
      (there : s.place? id = some (outer, o)) (rest : Opened s outer os) : Opened s (some id) (o :: os)

/-- Whether the steps that are left may be taken while the scopes of some nodes are open. -/
inductive Fits (t : Tree) : List NodeId → List BindStep → Prop where
  | nil {os : List NodeId} : Fits t os []
  | nothing {os : List NodeId} {rest : List BindStep} (more : Fits t os rest) :
      Fits t os (.visit none :: rest)
  | visit {o c : NodeId} {os : List NodeId} {rest : List BindStep} {n : Node}
      (node : t.nodes[c]? = some n) (notFile : n.kind ≠ .sourceFile) (whole : ¬t.IsFunctionBody c)
      (looked : t.LookedIn c o) (waits : ∀ i, t.InName c i → ∃ kind, .enter kind i ∈ rest)
      (more : Fits t (o :: os) rest) : Fits t (o :: os) (.visit (some c) :: rest)
  | enter {i : NodeId} {os : List NodeId} {rest : List BindStep} {kind : ScopeKind}
      (owns : t.OwnsScope i) (place : ∀ o, t.LookedIn i o → os.head? = some o) (more : Fits t (i :: os) rest) :
      Fits t os (.enter kind i :: rest)
  | leave {o : NodeId} {os : List NodeId} {rest : List BindStep} (more : Fits t os rest) :
      Fits t (o :: os) (.leave :: rest)

theorem Opened.keeps {id : Option ScopeId} {os : List NodeId} (h : s.Opened id os)
    (keeps : s.Keeps s') : s'.Opened id os := by
  induction h with
  | nil => exact .nil
  | cons there rest ih => exact .cons (keeps _ _ there) ih

theorem Nested.of_same (h : s.Nested t) (place : ∀ id, s'.place? id = s.place? id)
    (ofNode : s'.ofNode = s.ofNode) : s'.Nested t where
  found j id known := by
    rw [place]
    exact h.found j id (ofNode ▸ known)
  known id outer i there := by
    rw [ofNode]
    exact h.known id outer i (place id ▸ there)
  owns id outer i there := h.owns id outer i (place id ▸ there)
  outer id outer i there := by
    simp only [place]
    exact h.outer id outer i (place id ▸ there)

theorem Nested.enter (h : s.Nested t) (kind : ScopeKind) {i : NodeId} (owns : t.OwnsScope i)
    {os : List NodeId} (opened : s.Opened s.current os)
    (place : ∀ o, t.LookedIn i o → os.head? = some o) :
    (s.enterNode t kind i).Nested t := by
  obtain ⟨-, places, nodes⟩ := enterNode_place s t kind i
  have keeps : s.Keeps (s.enterNode t kind i) := keeps_step s t (.enter kind i)
  have made := places s.scopes.size
  rw [if_pos rfl] at made
  refine ⟨fun j id known => ?_, fun id outer j there => ?_, fun id outer j there => ?_,
    fun id outer j there => ?_⟩
  · rw [nodes] at known
    split at known
    · next here =>
      rw [Option.some.injEq] at known
      exact ⟨_, i, known ▸ made, here⟩
    · obtain ⟨outer, i', there, same⟩ := h.found j id known
      exact ⟨outer, i', keeps _ _ there, same⟩
  all_goals rw [places] at there
  · rw [nodes]
    split at there
    · rw [Option.some.injEq, Prod.mk.injEq] at there
      exact ⟨_, if_pos (.inl there.2)⟩
    · obtain ⟨id', known⟩ := h.known id outer j there
      split
      · exact ⟨_, rfl⟩
      · exact ⟨_, known⟩
  · split at there
    · rw [Option.some.injEq, Prod.mk.injEq] at there
      exact there.2 ▸ owns
    · exact h.owns id outer j there
  · split at there
    · rw [Option.some.injEq, Prod.mk.injEq] at there
      obtain ⟨rfl, rfl⟩ := there
      intro o looked
      have first := place o looked
      generalize s.current = current at opened
      cases opened with
      | nil => cases first
      | cons there rest =>
        rw [List.head?_cons, Option.some.injEq] at first
        exact ⟨_, _, rfl, keeps _ _ (first ▸ there)⟩
    · intro o looked
      obtain ⟨id', far, outwards, there'⟩ := h.outer id outer j there o looked
      exact ⟨id', far, outwards, keeps _ _ there'⟩

/-! ### Steps of a node -/

theorem fits_visits {o : NodeId} {os : List NodeId} {rest : List BindStep} {l : List Child}
    (each : ∀ c, some c ∈ l → (∃ n, t.nodes[c]? = some n ∧ n.kind ≠ .sourceFile) ∧
      ¬t.IsFunctionBody c ∧ t.LookedIn c o ∧ ∀ i, t.InName c i → ∃ kind, .enter kind i ∈ rest)
    (more : Fits t (o :: os) rest) : Fits t (o :: os) (l.map .visit ++ rest) := by
  induction l with
  | nil => exact more
  | cons id l ih =>
    have later := ih fun c h => each c (List.mem_cons_of_mem _ h)
    cases id with
    | none => exact .nothing later
    | some c =>
      obtain ⟨⟨n, hn, notFile⟩, whole, looked, waits⟩ := each c (List.mem_cons_self ..)
      refine .visit hn notFile whole looked (fun i inName => ?_) later
      obtain ⟨kind, waits⟩ := waits i inName
      exact ⟨kind, List.mem_append_right _ waits⟩

variable {c i o : NodeId} {n : Node} {p : Plan} {os : List NodeId} {rest : List BindStep}

theorem fits_opened (sound : t.Sound) (hn : t.nodes[i]? = some n) (whole : ¬t.IsFunctionBody i)
    (plan : t.Plans i n p) (place : ∀ o, t.LookedIn i o → os.head? = some o) (more : Fits t os rest) :
    Fits t os (p.opened i ++ rest) := by
  cases opens : p.opens with
  | none =>
    have nothing : p.opened i = [] := by rw [Plan.opened, opens]
    rwa [nothing]
  | some kind =>
    have steps : p.opened i ++ rest =
        .enter kind i :: (p.inner.map .visit ++ (.leave :: rest)) := by
      simp [Plan.opened, opens, scopeSteps]
    rw [steps]
    refine .enter ⟨n, hn, (plan.opens kind opens).1, whole⟩ place (fits_visits ?_ (.leave more))
    intro c inner
    obtain ⟨-, other, node⟩ := looked_spec sound plan (Plan.mem_visited.2 (.inr inner))
    obtain ⟨looked, nearest⟩ := plan.within c inner
    refine ⟨node, other, looked, fun j inName => ?_⟩
    obtain rfl := inName.nearest.unique nearest
    exact absurd ((looked.of_inName inName).lt sound) (Nat.lt_irrefl _)

theorem fits_steps (sound : t.Sound) (hn : t.nodes[i]? = some n) (notFile : n.kind ≠ .sourceFile)
    (whole : ¬t.IsFunctionBody i) (looked : t.LookedIn i o)
    (waits : ∀ j, t.InName i j → ∃ kind, .enter kind j ∈ rest) (more : Fits t (o :: os) rest) :
    Fits t (o :: os) (t.steps i ++ rest) := by
  obtain ⟨p, steps, plan⟩ := sound.exists_plan hn notFile whole
  rw [steps, Plan.steps, List.append_assoc]
  have place (o' : Nat) (looked' : t.LookedIn i o') : (o :: os).head? = some o' :=
    congrArg some (looked.unique looked')
  refine fits_visits (fun c outer => ?_) (fits_opened sound hn whole plan place more)
  obtain ⟨-, other, node⟩ := looked_spec sound plan (Plan.mem_visited.2 (.inl outer))
  obtain ⟨parent, named⟩ := plan.before c outer
  refine ⟨node, other, ?_⟩
  cases opens : n.kind.opensScope with
  | true =>
    have name := named opens
    refine ⟨.named parent name looked, fun j inName => ?_⟩
    obtain rfl := (Tree.InName.here parent name).nearest.unique inName.nearest
    cases kind : p.opens with
    | none =>
      rw [(plan.shut kind).2] at opens
      cases opens
    | some kind' =>
      exact ⟨kind', List.mem_append_left _ (by simp [Plan.opened, kind, scopeSteps])⟩
  | false =>
    have notOwner := Tree.not_ownsScope_of_kind (Tree.kind?_of_node hn) opens
    refine ⟨.further parent notOwner looked, fun j inName => ?_⟩
    cases inName with
    | here parent' name =>
      obtain rfl := Option.some.inj (parent.symm.trans parent')
      exact absurd name.owns notOwner
    | further parent' not inName =>
      obtain rfl := Option.some.inj (parent.symm.trans parent')
      obtain ⟨kind, waits⟩ := waits j inName
      exact ⟨kind, List.mem_append_right _ waits⟩

/-! ### The walk -/

structure Walking (t : Tree) (steps : List BindStep) (s : Scopes) : Prop where
  nested : s.Nested t
  fits : ∃ os, s.Opened s.current os ∧ Fits t os steps

theorem Walking.step (sound : t.Sound) {next : BindStep} (h : Walking t (next :: rest) s) :
    Walking t ((s.step t next).1 ++ rest) (s.step t next).2 := by
  obtain ⟨nested, os, opened, fits⟩ := h
  have keeps := keeps_step s t next
  cases fits with
  | nothing more => exact ⟨nested, os, opened, more⟩
  | visit hn notFile whole looked waits more =>
    rename_i c _ _
    have alike := alike_declareAll s t (t.declarations c)
    refine ⟨nested.of_same alike.place alike.ofNode, _, ?_,
      fits_steps sound hn notFile whole looked waits more⟩
    exact alike.current ▸ opened.keeps keeps
  | enter owns place more =>
    refine ⟨nested.enter _ owns opened place, _, ?_, more⟩
    obtain ⟨current, places, -⟩ := enterNode_place s t _ _
    refine current ▸ .cons ((places _).trans (if_pos rfl)) (opened.keeps keeps)
  | leave more =>
    refine ⟨nested.of_same (alike_leave s).1 (alike_leave s).2, _, ?_, more⟩
    generalize inner : s.current = current at opened
    cases opened with
    | @cons id outer _ _ there rest =>
      rw [place?, Option.map_eq_some_iff] at there
      obtain ⟨scope, there, same⟩ := there
      rw [Prod.mk.injEq] at same
      have outwards : s.leave.current = outer := (leave_current inner there).trans same.1
      exact outwards ▸ rest.keeps keeps

theorem Walking.leads (sound : t.Sound) {k : Nat} {l l' : List BindStep} (h : Walking t l s)
    (leads : Leads t k l s l' s') : Walking t l' s' := by
  induction leads with
  | here => exact h
  | step onwards ih => exact ih (h.step sound)

/-! ### Looking up -/

theorem Once.place_unique (once : s.Once) {id id' : ScopeId} {outer outer' : Option ScopeId}
    (there : s.place? id = some (outer, o)) (there' : s.place? id' = some (outer', o)) :
    id = id' := by
  rw [place?, Option.map_eq_some_iff] at there there'
  obtain ⟨scope, there, same⟩ := there
  obtain ⟨scope', there', same'⟩ := there'
  rw [Prod.mk.injEq] at same same'
  exact once _ _ _ _ there there' (same.2.trans same'.2.symm)

variable {id : ScopeId} {outer : Option ScopeId}

theorem Nested.ofNode_owner (sound : t.Sound) (nested : s.Nested t) (once : s.Once)
    (there : s.place? id = some (outer, o)) : s.ofNode[o]? = some id := by
  obtain ⟨id', known⟩ := nested.known id outer o there
  obtain ⟨outer', j, there', rfl | shared⟩ := nested.found o id' known
  · rw [known, once.place_unique there there']
  · obtain ⟨-, isBody, -⟩ := sound.sharedBody?_spec shared
    obtain ⟨-, -, -, not⟩ := nested.owns _ _ _ there
    exact absurd isBody not

theorem Nested.ofNode_between (sound : t.Sound) (nested : s.Nested t) (once : s.Once)
    (there : s.place? id = some (outer, o)) (near : t.Nearest t.OwnsScope c o)
    (not : ¬t.OwnsScope c) {id' : ScopeId} (known : s.ofNode[c]? = some id') : id' = id := by
  obtain ⟨outer', j, there', rfl | shared⟩ := nested.found c id' known
  · exact absurd (nested.owns _ _ _ there') not
  · obtain ⟨parent, -, owns⟩ := sound.sharedBody?_spec shared
    obtain rfl := near.unique (.here parent owns)
    exact once.place_unique there' there

/-- A lookup comes to the scope of the nearest node around that has one. -/
theorem enclosing?_eq (sound : t.Sound) (nested : s.Nested t) (once : s.Once)
    (there : s.place? id = some (outer, o)) (near : t.Nearest t.OwnsScope c o)
    (not : ¬t.OwnsScope c) : s.enclosing? t (some c) = some id := by
  -- on the steps that are left: parents have greater numbers, so the size of the tree is enough
  have climbs (fuel c : Nat) (enough : t.size ≤ fuel + c) (near : t.Nearest t.OwnsScope c o)
      (not : ¬t.OwnsScope c) : s.enclosingWithin t fuel (some c) = some id := by
    induction fuel generalizing c with
    | zero =>
      have low := near.lt sound
      obtain ⟨n, hn, -⟩ := near.holds
      have := Tree.lt_size_of_node hn
      omega
    | succ fuel ih =>
      unfold enclosingWithin
      cases known : s.ofNode[c]? with
      | some id' => exact congrArg some (nested.ofNode_between sound once there near not known)
      | none =>
        simp only
        cases near with
        | here parent owns =>
          have low := sound.parent_lt parent
          obtain ⟨n, hn, -⟩ := owns
          have := Tree.lt_size_of_node hn
          obtain ⟨fuel, rfl⟩ : ∃ k, fuel = k + 1 := ⟨fuel - 1, by omega⟩
          rw [parent, enclosingWithin, nested.ofNode_owner sound once there]
        | further parent notOwner near =>
          have low := sound.parent_lt parent
          rw [parent]
          exact ih _ (by omega) near notOwner
  exact climbs t.size c (by omega) near not

/-! ### The whole text -/

def firstSteps (t : Tree) (root : Child) : List BindStep :=
  match root, t.recordAt? root with
  | some i, some (.sourceFile statements _ _) => BindStep.ofFile i statements
  | _, _ => []

/-- Whether the walk over a text looks at a node while `s` are the scopes so far. -/
def LooksAt (t : Tree) (root : Child) (b : NodeId) (s : Scopes) : Prop :=
  ∃ k rest, Leads t k (firstSteps t root) .empty (.visit (some b) :: rest) s

/-- The steps that are left after `k` steps, and the scopes so far. -/
def after (t : Tree) : (k : Nat) → List BindStep → Scopes → List BindStep × Scopes
  | 0, l, s => (l, s)
  | _ + 1, [], s => ([], s)
  | k + 1, next :: rest, s => after t k ((s.step t next).1 ++ rest) (s.step t next).2

theorem leads_after {k : Nat} {l : List BindStep} (more : (after t k l s).1 ≠ []) :
    Leads t k l s (after t k l s).1 (after t k l s).2 := by
  induction k generalizing l s with
  | zero => exact .here
  | succ k ih =>
    cases l with
    | nil => exact absurd rfl more
    | cons next rest => exact .step (ih more)

theorem looksAt_after {root : Child} {k : Nat} {b : NodeId}
    (next : (after t k (firstSteps t root) .empty).1.head? = some (.visit (some b))) :
    LooksAt t root b (after t k (firstSteps t root) .empty).2 := by
  obtain ⟨rest, steps⟩ := List.head?_eq_some_iff.1 next
  have leads := leads_after (s := .empty) (t := t) (k := k) (l := firstSteps t root) (by simp [steps])
  exact ⟨k, rest, steps ▸ leads⟩

theorem Leads.behind {k m : Nat} {l l' : List BindStep} (h : Leads t k l s l' s')
    (h' : Leads t m l s [] s'') : ∃ m', Leads t m' l' s' [] s'' := by
  induction h generalizing m with
  | here => exact ⟨m, h'⟩
  | step onwards ih =>
    cases h' with
    | step onwards' => exact ih onwards'

theorem walking_start (sound : t.Sound) (hn : t.nodes[i]? = some n) (file : n.kind = .sourceFile)
    (top : t.parent (some i) = none) {statements : NodeList} {endOfFile : Child} {fileName : String}
    (hc : t.Construct i n (.sourceFile statements endOfFile fileName)) :
    Walking t (BindStep.ofFile i statements) .empty := by
  have plan := Tree.plans_file sound hn hc file
  have whole : ¬t.IsFunctionBody i := Tree.not_isFunctionBody_of_kind hn (by rw [file]; decide)
  have alone (o : Nat) (looked : t.LookedIn i o) : ([] : List NodeId).head? = some o := by
    cases looked with
    | inside parent | named parent | further parent =>
      rw [top] at parent
      cases parent
  have fits : Fits t [] (BindStep.ofFile i statements) := by
    rw [← List.append_nil (BindStep.ofFile i statements)]
    exact fits_opened sound hn whole plan alone .nil
  refine ⟨⟨?_, ?_, ?_, ?_⟩, [], .nil, fits⟩
  · intro j id known
    simp [empty] at known
  all_goals
    intro id outer i there
    cases there

theorem LooksAt.enclosing? (sound : t.Sound) (hn : t.nodes[i]? = some n)
    (file : n.kind = .sourceFile) (top : t.parent (some i) = none) {b : NodeId}
    (looks : LooksAt t (some i) b s) (name : t.kind? (some b) = some (.token .identifier)) :
    ((ofTree t (some i)).enclosing? t (some b) = s.current ↔ ¬∃ j, t.InName b j) ∧
      ∀ j, t.InName b j → ∃ id, (ofTree t (some i)).enclosing? t (some b) = some id ∧
        (ofTree t (some i)).place? id = some (s.current, j) := by
  obtain ⟨k, rest, leads⟩ := looks
  obtain ⟨r, hc, shape⟩ := sound.construct_of_shape hn (congrArg NodeKind.shape? file)
  cases r <;> cases shape
  next statements endOfFile fileName =>
  have first : firstSteps t (some i) = BindStep.ofFile i statements := by
    simp only [firstSteps, Tree.recordAt?_of_node hn, hc.record]
  rw [first] at leads
  obtain ⟨⟨m, ends⟩, -⟩ := leads_ofTree sound hn file hc
  obtain ⟨m, behind⟩ := leads.behind ends
  have walking := (walking_start sound hn file top hc).leads sound leads
  have nested := (walking.leads sound behind).nested
  have once := (ofTree_spec sound hn file).1
  have notOwner : ¬t.OwnsScope b := Tree.not_ownsScope_of_kind name rfl
  obtain ⟨-, os, opened, fits⟩ := walking
  generalize s.current = current at opened ⊢
  cases fits with
  | @visit o _ _ _ _ node notFile whole looked waits more =>
  cases opened with
  | @cons id outer _ _ there above =>
  -- in the name of a method, the step that opens the scope of the method still waits
  have inside (j : Nat) (inName : t.InName b j) :
      ∃ id', (ofTree t (some i)).enclosing? t (some b) = some id' ∧
        (ofTree t (some i)).place? id' = some (some id, j) := by
    obtain ⟨kind, waits⟩ := waits j inName
    obtain ⟨id', outer', made⟩ := behind.enters (List.mem_cons_of_mem _ waits)
    obtain ⟨id'', far, rfl, there'⟩ := nested.outer _ _ _ made o (looked.of_inName inName)
    obtain rfl := once.place_unique there' (behind.keeps _ _ there)
    exact ⟨id', enclosing?_eq sound nested once made inName.nearest notOwner, made⟩
  refine ⟨⟨?_, fun outside => ?_⟩, inside⟩
  · rintro same ⟨j, inName⟩
    obtain ⟨id', enclosing, made⟩ := inside j inName
    obtain rfl := Option.some.inj (same.symm.trans enclosing)
    have again := behind.keeps _ _ there
    rw [made, Option.some.injEq, Prod.mk.injEq] at again
    have := (looked.of_inName inName).lt sound
    omega
  · have near := looked.nearest fun j inName => outside ⟨j, inName⟩
    exact enclosing?_eq sound nested once (behind.keeps _ _ there) near notOwner

end Scopes

/-- A name is looked up in the scope that was open when the walk looked at it, except in the name of
a method. There it is looked up in the scope of the method, which lies in the one that was open. -/
theorem parseFile_lookup_place (fileName source : String) (b : NodeId) (s : Scopes)
    (looks : Scopes.LooksAt (parseFile fileName source).tree (parseFile fileName source).root b s)
    (name : (parseFile fileName source).tree.kind? (some b) = some (.token .identifier)) :
    ((Scopes.ofTree (parseFile fileName source).tree (parseFile fileName source).root).enclosing?
        (parseFile fileName source).tree (some b) = s.current ↔
      ¬∃ j, (parseFile fileName source).tree.InName b j) ∧
    ∀ j, (parseFile fileName source).tree.InName b j → ∃ id,
      (Scopes.ofTree (parseFile fileName source).tree (parseFile fileName source).root).enclosing?
        (parseFile fileName source).tree (some b) = some id ∧
      (Scopes.ofTree (parseFile fileName source).tree (parseFile fileName source).root).place? id =
        some (s.current, j) := by
  obtain ⟨sound, i, n, root, hn, file, top⟩ := parseFile_sound fileName source
  rw [root] at looks ⊢
  refine looks.enclosing? sound hn file ?_ name
  rw [Tree.parent, Tree.node?_some, hn]
  exact top

/-- In this class the walk looks at `a` in the scope of the class, while the lookup finds that of the
method, with its parameter `a`. -/
theorem parseFile_lookup_place_computed :
    ∃ (file : ParsedFile) (s : Scopes),
      file = parseFile "method.ts" "class C \x7b [a['b']](a) \x7b\x7d \x7d" ∧
        Scopes.LooksAt file.tree file.root 1 s ∧
        file.tree.kind? (some 1) = some (.token .identifier) ∧
        (Scopes.ofTree file.tree file.root).enclosing? file.tree (some 1) ≠ s.current := by
  generalize source : "class C \x7b [a['b']](a) \x7b\x7d \x7d" = text
  obtain ⟨s, looks⟩ : ∃ s, Scopes.LooksAt (parseFile "method.ts" text).tree
      (parseFile "method.ts" text).root 1 s := by
    refine ⟨_, Scopes.looksAt_after (k := 7) ?_⟩
    subst source
    decide +kernel
  have name : (parseFile "method.ts" text).tree.kind? (some 1) = some (.token .identifier) := by
    subst source
    decide +kernel
  refine ⟨_, _, rfl, looks, name, ?_⟩
  rw [Ne, (parseFile_lookup_place "method.ts" text 1 _ looks name).1, not_not]
  subst source
  refine ⟨8, .further (p := 3) (by decide +kernel) ?_ (.further (p := 4) (by decide +kernel) ?_
    (.here (by decide +kernel) (by decide +kernel)))⟩
  · exact Tree.not_ownsScope_of_kind (k := .elementAccess) (by decide +kernel) rfl
  · exact Tree.not_ownsScope_of_kind (k := .computedPropertyName) (by decide +kernel) rfl

end PathGuard
