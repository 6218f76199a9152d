import Mathlib.Data.List.Pairwise
import PathGuard.Proofs.Scope.Silent
import PathGuard.Proofs.Tree.Preorder
/-!
# How a node is bound

The steps of a node look at some of its parts outside of the scope that it opens, if it opens one,
and at others inside. Whatever lies below the node and is not looked at declares nothing.
-/

namespace PathGuard

/-- The parts of a node that are looked at outside of the scope that it opens, what it opens, and
those that are looked at inside. -/
structure Plan where
  outer : List Child
  opens : Option ScopeKind
  inner : List Child

def scopeSteps (kind : ScopeKind) (i : Nat) (inner : List Child) : List BindStep :=
  .enter kind i :: (inner.map .visit ++ [.leave])

namespace Plan

def opened (p : Plan) (i : Nat) : List BindStep :=
  match p.opens with
  | none => []
  | some kind => scopeSteps kind i p.inner

def steps (p : Plan) (i : Nat) : List BindStep := p.outer.map .visit ++ p.opened i

def visited (p : Plan) : List Nat := (p.outer ++ p.inner).filterMap id

theorem mem_visited {p : Plan} {c : Nat} :
    c ∈ p.visited ↔ some c ∈ p.outer ∨ some c ∈ p.inner := by
  simp [visited]

end Plan

def NodeKind.isBlockLike : NodeKind → Bool
  | .block | .caseBlock | .forStatement | .forInStatement | .forOfStatement | .catchClause => true
  | _ => false

theorem Record.kind_ne_file {r : Record} (k : NodeKind) :
    ∀ q ∈ r.roles k, q.2 .sourceFile = false := by
  have function : functionName k .sourceFile = false := by
    unfold functionName
    split <;> rfl
  cases r
  all_goals simp +decide [roles, function, ite_apply, or_imp, forall_and]

namespace Tree

def Separate (t : Tree) (a b : Nat) : Prop := ∀ d, t.Below a d → ¬t.Below b d

def IsClosed (t : Tree) (i : Nat) : Prop := ∀ n, t.nodes[i]? = some n → n.kind.isClosed = true

/-- Whether a plan is one for a node: what is looked at lies below the node, each in its own place,
and the rest declares nothing; what is looked at outside of a scope that the node opens is closed;
and what is looked at inside is closed or lies in that scope. The scopes that are open then are those
of `LookedIn`. -/
structure Plans (t : Tree) (i : Nat) (n : Node) (p : Plan) : Prop where
  below : ∀ c ∈ p.visited, t.Below i c ∧ c < i
  apart : p.visited.Pairwise t.Separate
  covers : ∀ d, t.Below i d → d = i ∨ (∃ c ∈ p.visited, t.Below c d) ∨ t.Silent d
  noBody : ∀ c ∈ p.visited, ¬t.IsFunctionBody c
  outer : ∀ c, some c ∈ p.outer → t.IsClosed c ∨
    n.kind.isClosed = false ∧ n.kind.opensScope = false ∧ t.parent (some c) = some i
  opens : ∀ kind, p.opens = some kind →
    n.kind.opensScope = true ∧ kind.holdsHoisted = n.kind.holdsHoisted
  shut : p.opens = none → p.inner = [] ∧ n.kind.opensScope = false
  inner : ∀ c, some c ∈ p.inner → t.IsClosed c ∨
    n.kind.isBlockLike = true ∧ t.parent (some c) = some i ∨
    n.kind.holdsHoisted = true ∧ t.Nearest t.OwnsScope c i ∧ t.Nearest t.HoldsHoisted c i
  before : ∀ c, some c ∈ p.outer →
    t.parent (some c) = some i ∧ (n.kind.opensScope = true → t.NamedOutside i c)
  within : ∀ c, some c ∈ p.inner → t.LookedIn c i ∧ t.Nearest t.OwnsScope c i

variable {t : Tree} {i : Nat} {n : Node}

theorem separate_of_children (sound : t.Sound) {l : List Nat} (nodup : l.Nodup)
    (children : ∀ c ∈ l, c ∈ t.children (some i)) : l.Pairwise t.Separate := by
  refine List.Pairwise.imp_of_mem ?_ nodup
  intro a b ha hb different d below below'
  exact different (Below.apart sound (children a ha) (children b hb) below below')

theorem Sound.kind_ne_file (sound : t.Sound) {c : Nat} {m : Node} (hm : t.nodes[c]? = some m)
    (below : t.Below i c) (less : c < i) : m.kind ≠ .sourceFile := by
  intro file
  cases below with
  | self => omega
  | @part p _ above part =>
    have owned := sound.mem_children.1 part
    obtain ⟨n, r, hn, -⟩ := sound.belongs owned
    obtain ⟨r, m', kinds, -, hm', role, suits⟩ := sound.child_role hn part
    rw [hm, Option.some.injEq] at hm'
    have unfit : kinds .sourceFile = false := Record.kind_ne_file n.kind _ role
    rw [← hm', file, unfit] at suits
    cases suits

theorem not_isFunctionBody_of_parent {c p : Nat} {m : Node} (owned : t.parent (some c) = some p)
    (hm : t.nodes[p]? = some m) (other : m.kind.isFunction = false) : ¬t.IsFunctionBody c := by
  rintro ⟨p', m', n', owned', hm', function, -⟩
  have same := Option.some.inj (owned.symm.trans owned')
  subst same
  rw [hm, Option.some.injEq] at hm'
  rw [← hm', other] at function
  cases function

theorem not_isFunctionBody_of_kind {c : Nat} {m : Node} (hm : t.nodes[c]? = some m)
    (other : m.kind ≠ .block) : ¬t.IsFunctionBody c := by
  rintro ⟨-, -, n', -, -, -, hn', block⟩
  rw [hm, Option.some.injEq] at hn'
  exact other (hn' ▸ block)

theorem Sound.closed_child (sound : t.Sound) (hn : t.nodes[i]? = some n)
    (closed : n.kind.isClosed = true) (notFunction : n.kind.isFunction = false)
    (notStatic : n.kind ≠ .staticBlock) {c : Nat} (part : c ∈ t.children (some i)) :
    t.IsClosed c := by
  obtain ⟨r, m, kinds, hc, hm, role, suits⟩ := sound.child_role hn part
  have closes : NodeKind.Closed kinds := by
    have shape := hc.layout.shape
    unfold NodeKind.isClosed at closed
    rw [shape] at closed
    simp only [notFunction, Bool.false_and, Bool.or_false, Bool.or_eq_true, beq_iff_eq] at closed
    rcases closed with (closed | classLike) | static
    · exact Record.closed_roles closed _ _ role
    · rw [classLike] at shape
      cases r <;> cases shape
      exact Record.closed_class _ _ _ _ _ role
    · exact absurd static notStatic
  intro m' hm'
  rw [hm, Option.some.injEq] at hm'
  exact hm' ▸ closes _ suits

theorem namedOutside_iff (hn : t.nodes[i]? = some n) {c : Nat} :
    t.NamedOutside i c ↔ n.kind.isNamedOutside = true ∧
      ∃ modifiers isAsync isGenerator parameters body isArrow, t.record? n =
        some (.function modifiers isAsync isGenerator (some c) parameters body isArrow) := by
  unfold NamedOutside outsideName
  rw [kind?_of_node hn, recordAt?_of_node hn]
  cases record : t.record? n with
  | none => simp
  | some r => cases r <;> simp

/-! ### Plans without scopes -/

theorem plans_plain (sound : t.Sound) (hn : t.nodes[i]? = some n) (outer : List Child)
    (same : ∀ c, some c ∈ outer ↔ c ∈ t.children (some i)) (nodup : (outer.filterMap id).Nodup)
    (plain : n.kind.opensScope = false) : t.Plans i n ⟨outer, none, []⟩ := by
  have visited (c : Nat) : c ∈ (Plan.mk outer none []).visited ↔ c ∈ t.children (some i) := by
    rw [← same, Plan.visited, List.append_nil]
    simp
  have notFunction : n.kind.isFunction = false := by
    refine Bool.eq_false_iff.2 fun function => ?_
    rw [NodeKind.opensScope_of_isFunction function] at plain
    cases plain
  exact {
    below := fun c hc => ⟨.of_child ((visited c).1 hc) .self, sound.child_lt ((visited c).1 hc)⟩
    apart := by
      refine separate_of_children sound ?_ fun c hc => (visited c).1 hc
      rwa [Plan.visited, List.append_nil]
    covers := by
      intro d below
      rcases below.cases_top with rfl | ⟨c, part, below⟩
      · exact .inl rfl
      · exact .inr (.inl ⟨c, (visited c).2 part, below⟩)
    noBody := fun c hc =>
      not_isFunctionBody_of_parent (sound.mem_children.1 ((visited c).1 hc)) hn notFunction
    outer := by
      intro c hc
      have part := (same c).1 hc
      cases closed : n.kind.isClosed with
      | false => exact .inr ⟨rfl, plain, sound.mem_children.1 part⟩
      | true =>
        refine .inl (sound.closed_child hn closed notFunction (fun static => ?_) part)
        rw [static] at plain
        cases plain
    opens := by simp
    shut := fun _ => ⟨rfl, plain⟩
    inner := by simp
    before := by
      intro c hc
      refine ⟨sound.mem_children.1 ((same c).1 hc), fun opens => ?_⟩
      rw [plain] at opens
      cases opens
    within := by simp }

theorem plans_nothing (hidden : ∀ c ∈ t.children (some i), t.SilentBelow c)
    (plain : n.kind.opensScope = false) :
    t.Plans i n ⟨[], none, []⟩ where
  below := by simp [Plan.visited]
  apart := .nil
  covers := by
    intro d below
    rcases below.cases_top with rfl | ⟨c, part, below⟩
    · exact .inl rfl
    · exact .inr (.inr (hidden c part d below))
  noBody := by simp [Plan.visited]
  outer := by simp
  opens := by simp
  shut := fun _ => ⟨rfl, plain⟩
  inner := by simp
  before := by simp
  within := by simp

/-! ### Plans with scopes -/

theorem plans_around (sound : t.Sound) (hn : t.nodes[i]? = some n) (kind : ScopeKind)
    (opens : n.kind.opensScope = true) (hoists : kind.holdsHoisted = n.kind.holdsHoisted)
    (notFunction : n.kind.isFunction = false) (whole : ¬t.IsFunctionBody i) (inner : List Child)
    (parts : ∀ c, some c ∈ inner → c ∈ t.children (some i)) (nodup : (inner.filterMap id).Nodup)
    (rest : ∀ c ∈ t.children (some i), some c ∉ inner → t.SilentBelow c)
    (how : n.kind.isBlockLike = true ∨ n.kind.holdsHoisted = true ∨
      ∀ c, some c ∈ inner → t.IsClosed c) :
    t.Plans i n ⟨[], some kind, inner⟩ := by
  have visited (c : Nat) : c ∈ (Plan.mk [] (some kind) inner).visited ↔ some c ∈ inner := by
    simp [Plan.visited]
  have part (c : Nat) (hc : c ∈ (Plan.mk [] (some kind) inner).visited) :
      c ∈ t.children (some i) := parts c ((visited c).1 hc)
  exact {
    below := fun c hc => ⟨.of_child (part c hc) .self, sound.child_lt (part c hc)⟩
    apart := separate_of_children sound nodup part
    covers := by
      intro d below
      rcases below.cases_top with rfl | ⟨c, part, below⟩
      · exact .inl rfl
      · by_cases looked : some c ∈ inner
        · exact .inr (.inl ⟨c, (visited c).2 looked, below⟩)
        · exact .inr (.inr (rest c part looked d below))
    noBody := fun c hc =>
      not_isFunctionBody_of_parent (sound.mem_children.1 (part c hc)) hn notFunction
    outer := by simp
    opens := by
      intro kind' same
      cases same
      exact ⟨opens, hoists⟩
    shut := by simp
    inner := by
      intro c hc
      have owned := sound.mem_children.1 (parts c hc)
      rcases how with block | holds | closed
      · exact .inr (.inl ⟨block, owned⟩)
      · exact .inr (.inr ⟨holds, .here owned ⟨n, hn, opens, whole⟩, .here owned ⟨n, hn, holds⟩⟩)
      · exact .inl (closed c hc)
    before := by simp
    within := by
      intro c hc
      have owned := sound.mem_children.1 (parts c hc)
      have owns : t.OwnsScope i := ⟨n, hn, opens, whole⟩
      refine ⟨.inside owned owns ?_, .here owned owns⟩
      intro named
      have outside := ((namedOutside_iff hn).1 named).1
      rw [NodeKind.isNamedOutside, notFunction] at outside
      cases outside }

theorem plans_container (sound : t.Sound) (hn : t.nodes[i]? = some n) {kind : ScopeKind}
    (opens : n.kind.opensScope = true) (hoists : kind.holdsHoisted = n.kind.holdsHoisted)
    (notFunction : n.kind.isFunction = false) (whole : ¬t.IsFunctionBody i)
    (how : n.kind.isBlockLike = true ∨ n.kind.holdsHoisted = true) :
    t.Plans i n ⟨[], some kind, (t.children (some i)).map some⟩ := by
  refine plans_around sound hn kind opens hoists notFunction whole _ ?_ ?_ ?_ ?_
  · simp
  · simpa using sound.children_nodup i
  · intro c part absent
    exact absurd (List.mem_map_of_mem part) absent
  · rcases how with block | holds
    · exact .inl block
    · exact .inr (.inl holds)

/-- A class. Its own name is declared where it stands, or when its scope is opened. -/
theorem plans_class (sound : t.Sound) (hn : t.nodes[i]? = some n) {name heritage : Child}
    {members : NodeList} (hc : t.Construct i n (.classLike name heritage members))
    (kind : n.kind.isClass = true) :
    t.Plans i n ⟨[], some .classLike, heritage :: members.nodes⟩ := by
  have notHoisted : n.kind.holdsHoisted = false := by
    rw [NodeKind.isClass, Bool.or_eq_true, beq_iff_eq, beq_iff_eq] at kind
    rcases kind with kind | kind <;> rw [kind] <;> rfl
  have opens : n.kind.opensScope = true := by
    unfold NodeKind.opensScope
    rw [kind]
    simp
  have whole : ¬t.IsFunctionBody i := by
    refine not_isFunctionBody_of_kind hn fun block => ?_
    rw [block] at kind
    cases kind
  refine plans_around sound hn .classLike opens notHoisted.symm ?_ whole _ ?_ ?_ ?_ (.inr (.inr ?_))
  · refine Bool.eq_false_iff.2 fun function => ?_
    rw [NodeKind.holdsHoisted_of_isFunction function] at notHoisted
    cases notHoisted
  · intro c part
    exact (hc.mem_children hn c).2 (List.mem_cons_of_mem _ part)
  · exact hc.nodup.sublist (.filterMap _ (List.sublist_cons_self ..))
  · intro c part absent
    rcases List.mem_cons.1 ((hc.mem_children hn c).1 part) with rfl | inner
    · obtain ⟨m, hm, suits⟩ := hc.part_kind (List.mem_cons_self ..)
      exact sound.silentBelow_of_outerName hm (isOuterName_of_name suits)
    · exact absurd inner absent
  · intro c inner m hm
    obtain ⟨⟨_, kinds⟩, role, rfl⟩ : ∃ q ∈ (Record.classLike name heritage members).roles n.kind,
        q.1 = some c := by
      rw [← List.mem_map, Record.roles_parts]
      exact List.mem_cons_of_mem _ inner
    exact Record.closed_class _ _ _ _ _ role _ ((hc.layout.suits _ role).kind hm)

theorem plans_file (sound : t.Sound) (hn : t.nodes[i]? = some n) {statements : NodeList}
    {endOfFile : Child} {fileName : String}
    (hc : t.Construct i n (.sourceFile statements endOfFile fileName))
    (kind : n.kind = .sourceFile) : t.Plans i n ⟨[], some .sourceFile, statements.nodes⟩ := by
  refine plans_around sound hn .sourceFile (by rw [kind]; rfl) (by rw [kind]; rfl)
    (by rw [kind]; rfl) (not_isFunctionBody_of_kind hn (by rw [kind]; decide)) _ ?_ ?_ ?_
    (.inr (.inl (by rw [kind]; rfl)))
  · intro c part
    exact (hc.mem_children hn c).2 (List.mem_append_left _ part)
  · exact hc.nodup.sublist (.filterMap _ (List.sublist_append_left ..))
  · intro c part absent
    rcases List.mem_append.1 ((hc.mem_children hn c).1 part) with inner | last
    · exact absurd inner absent
    · obtain rfl := List.mem_singleton.1 last
      obtain ⟨m, hm, suits⟩ := hc.part_kind (List.mem_append_right _ (List.mem_singleton_self _))
      have word : m.kind = .token .endOfFile := eq_of_beq suits
      exact sound.silentBelow_of_bare hm (.inl (by rw [word]; rfl)) (by rw [word]; rfl)

/-! ### Functions -/

theorem holdsHoisted_of_isFunction (hn : t.nodes[i]? = some n) (function : n.kind.isFunction = true) :
    t.HoldsHoisted i :=
  ⟨n, hn, NodeKind.holdsHoisted_of_isFunction function⟩

theorem ownsScope_of_isFunction (hn : t.nodes[i]? = some n) (function : n.kind.isFunction = true) :
    t.OwnsScope i := by
  refine ⟨n, hn, NodeKind.opensScope_of_isFunction function, ?_⟩
  refine not_isFunctionBody_of_kind hn fun block => ?_
  rw [block] at function
  cases function

def bodyParts (t : Tree) (body : Child) : List Child :=
  match t.node? body with
  | none => []
  | some n =>
    match n.kind, t.record? n with
    | .block, some (.block statements _) => statements.nodes
    | _, _ => [body]

theorem bodySteps_eq (t : Tree) (body : Child) :
    t.bodySteps body = (t.bodyParts body).map .visit := by
  unfold bodySteps bodyParts
  cases t.node? body with
  | none => rfl
  | some n =>
    dsimp only
    split <;> grind

theorem Sound.bodyParts_of_block (sound : t.Sound) {b : Nat} {m : Node}
    (hm : t.nodes[b]? = some m) (block : m.kind = .block) :
    (∀ c, some c ∈ t.bodyParts (some b) ↔ c ∈ t.children (some b)) ∧
      ((t.bodyParts (some b)).filterMap id).Nodup := by
  obtain ⟨r, hc, shape⟩ := sound.construct_of_shape hm (by rw [block]; rfl)
  cases r <;> cases shape
  next statements multiLine =>
  have parts : t.bodyParts (some b) = statements.nodes := by
    unfold bodyParts
    rw [node?_some, hm]
    simp only [block, hc.record]
  rw [parts]
  exact ⟨fun c => (hc.mem_children hm c).symm, hc.nodup⟩

theorem bodyParts_of_other {b : Nat} {m : Node} (hm : t.nodes[b]? = some m)
    (other : m.kind ≠ .block) : t.bodyParts (some b) = [some b] := by
  unfold bodyParts
  rw [node?_some, hm]
  simp only
  split
  · next block _ => exact absurd block other
  · rfl

/-- A function with its parts, and those of them that are looked at outside of its scope: the name of
a method is, a plain name is not looked at at all. -/
structure FunctionAt (t : Tree) (i : Nat) (n : Node) (outer : List Child) (name : Child)
    (parameters : NodeList) (body : Child) : Prop where
  node : t.nodes[i]? = some n
  isFunction : n.kind.isFunction = true
  named : outer = [name] ∧ n.kind.isNamedOutside = true ∨
    outer = [] ∧ Record.functionName n.kind = NodeKind.isName
  construct : ∃ modifiers isAsync isGenerator isArrow, t.Construct i n
    (.function modifiers isAsync isGenerator name parameters body isArrow)

namespace FunctionAt

variable {outer : List Child} {name body : Child} {parameters : NodeList} {b c d : Nat}

section

variable (f : t.FunctionAt i n outer name parameters body)
include f

/-! ### The parts of a function -/

theorem suits_name : t.Suits (Record.functionName n.kind) name := by
  obtain ⟨_, _, _, _, hc⟩ := f.construct
  exact hc.layout.suits (name, Record.functionName n.kind) (by simp [Record.roles])

theorem suits_parameter {parameter : Child} (mem : parameter ∈ parameters.nodes) :
    t.Suits (· == .parameter) parameter := by
  obtain ⟨_, _, _, _, hc⟩ := f.construct
  exact hc.layout.suits (parameter, (· == .parameter)) (by simp [Record.roles, mem])

theorem suits_body : t.Suits NodeKind.isBody body := by
  obtain ⟨_, _, _, _, hc⟩ := f.construct
  exact hc.layout.suits (body, NodeKind.isBody) (by simp [Record.roles])

theorem mem_children (part : some c ∈ name :: (parameters.nodes ++ [body])) :
    c ∈ t.children (some i) := by
  obtain ⟨modifiers, _, _, _, hc⟩ := f.construct
  exact (hc.mem_children f.node c).2 (List.mem_append_right (Record.optionalNodes modifiers) part)

theorem part_cases (part : c ∈ t.children (some i)) :
    (∃ m, t.nodes[c]? = some m ∧ m.kind.isModifier = true) ∨
      some c ∈ name :: (parameters.nodes ++ [body]) := by
  obtain ⟨modifiers, _, _, _, hc⟩ := f.construct
  refine (List.mem_append.1 ((hc.mem_children f.node c).1 part)).imp (fun modifier => ?_) id
  exact hc.layout.suits (some c, NodeKind.isModifier) (by simp [Record.roles, modifier]) c rfl

theorem nodup : ((name :: (parameters.nodes ++ [body])).filterMap id).Nodup := by
  obtain ⟨modifiers, _, _, _, hc⟩ := f.construct
  exact hc.nodup.sublist (.filterMap _ (List.sublist_append_right (Record.optionalNodes modifiers) _))

theorem ownsScope : t.OwnsScope i := ownsScope_of_isFunction f.node f.isFunction

theorem holdsHoisted : t.HoldsHoisted i := holdsHoisted_of_isFunction f.node f.isFunction

/-! ### What a function looks at in front of its body -/

theorem front_sublist : (outer ++ parameters.nodes).Sublist (name :: parameters.nodes) := by
  rcases f.named with ⟨rfl, -⟩ | ⟨rfl, -⟩
  · exact .refl _
  · exact List.sublist_cons_self ..

theorem mem_children_front (front : some c ∈ outer ++ parameters.nodes) :
    c ∈ t.children (some i) :=
  f.mem_children (List.mem_append_left [body] (f.front_sublist.subset front))

theorem not_isFunctionBody_front (front : some c ∈ outer ++ parameters.nodes) :
    ¬t.IsFunctionBody c := by
  rcases List.mem_cons.1 (f.front_sublist.subset front) with rfl | parameter
  · obtain ⟨m, hm, kind⟩ := f.suits_name c rfl
    refine not_isFunctionBody_of_kind hm fun block => ?_
    have closed := Record.closed_functionName n.kind _ kind
    rw [block] at closed
    cases closed
  · obtain ⟨m, hm, kind⟩ := f.suits_parameter parameter c rfl
    refine not_isFunctionBody_of_kind hm fun block => ?_
    rw [block] at kind
    cases kind

theorem ne_body_of_front (front : some c ∈ outer ++ parameters.nodes) : some c ≠ body := by
  rintro rfl
  have once := f.nodup
  rw [← List.cons_append, List.filterMap_append, List.nodup_append] at once
  have before : c ∈ (name :: parameters.nodes).filterMap id :=
    List.mem_filterMap.2 ⟨_, f.front_sublist.subset front, rfl⟩
  exact once.2.2 c before c (by simp) rfl

theorem front_nodup : ((outer ++ parameters.nodes).filterMap id).Nodup := by
  have all := f.nodup
  rw [← List.cons_append, List.filterMap_append] at all
  exact (List.nodup_append.1 all).1.sublist (f.front_sublist.filterMap id)

theorem not_namedOutside (inside : some c ∈ parameters.nodes ++ [body]) : ¬t.NamedOutside i c := by
  intro named
  obtain ⟨_, _, _, _, hc⟩ := f.construct
  obtain ⟨-, _, _, _, _, _, _, record⟩ := (namedOutside_iff f.node).1 named
  rw [hc.record] at record
  obtain rfl : name = some c := by
    simp only [Option.some.injEq, Record.function.injEq] at record
    exact record.2.2.2.1
  have once : (c :: (parameters.nodes ++ [body]).filterMap id).Nodup := f.nodup
  exact (List.nodup_cons.1 once).1 (List.mem_filterMap.2 ⟨_, inside, rfl⟩)

theorem namedOutside (before : some c ∈ outer) : t.NamedOutside i c := by
  obtain ⟨_, _, _, _, hc⟩ := f.construct
  rcases f.named with ⟨rfl, named⟩ | ⟨rfl, -⟩
  · obtain rfl : some c = name := List.mem_singleton.1 before
    exact (namedOutside_iff f.node).2 ⟨named, _, _, _, _, _, _, hc.record⟩
  · cases before

theorem isClosed_outer (before : some c ∈ outer) : t.IsClosed c := by
  rcases f.named with ⟨rfl, -⟩ | ⟨rfl, -⟩
  · intro m hm
    rw [← List.mem_singleton.1 before] at f
    exact Record.closed_functionName n.kind _ (f.suits_name.kind hm)
  · cases before

end

/-! ### What a function looks at in its body -/

section

variable (sound : t.Sound) (f : t.FunctionAt i n outer name parameters (some b))
include sound f

theorem body_owned : t.parent (some b) = some i :=
  sound.mem_children.1 (f.mem_children (by simp))

theorem isFunctionBody {m : Node} (hm : t.nodes[b]? = some m) (block : m.kind = .block) :
    t.IsFunctionBody b :=
  ⟨i, n, m, f.body_owned sound, f.node, f.isFunction, hm, block⟩

theorem bodyPart (looked : some c ∈ t.bodyParts (some b)) :
    t.Below b c ∧ ¬t.IsFunctionBody c ∧ t.Nearest t.OwnsScope c i ∧ t.Nearest t.HoldsHoisted c i := by
  have owned := f.body_owned sound
  obtain ⟨m, hm, -⟩ := f.suits_body b rfl
  by_cases block : m.kind = .block
  · have part := ((sound.bodyParts_of_block hm block).1 c).1 looked
    have owned' := sound.mem_children.1 part
    -- the climb from a statement passes the block, which has no scope besides that of the function
    have notOwner := (f.isFunctionBody sound hm block).not_ownsScope
    have notHolder := not_holdsHoisted_of_kind (kind?_of_node hm) (by rw [block]; rfl)
    exact ⟨.of_child part .self, not_isFunctionBody_of_parent owned' hm (by rw [block]; rfl),
      .further owned' notOwner (.here owned f.ownsScope),
      .further owned' notHolder (.here owned f.holdsHoisted)⟩
  · obtain rfl : c = b := by simpa [bodyParts_of_other hm block] using looked
    exact ⟨.self, not_isFunctionBody_of_kind hm block, .here owned f.ownsScope,
      .here owned f.holdsHoisted⟩

theorem lookedIn_bodyPart (looked : some c ∈ t.bodyParts (some b)) : t.LookedIn c i := by
  have owned := f.body_owned sound
  have inside : t.LookedIn b i := .inside owned f.ownsScope (f.not_namedOutside (by simp))
  obtain ⟨m, hm, -⟩ := f.suits_body b rfl
  by_cases block : m.kind = .block
  · have owned' := sound.mem_children.1 (((sound.bodyParts_of_block hm block).1 c).1 looked)
    exact .further owned' (f.isFunctionBody sound hm block).not_ownsScope inside
  · obtain rfl : c = b := by simpa [bodyParts_of_other hm block] using looked
    exact inside

theorem bodyParts_apart : ((t.bodyParts (some b)).filterMap id).Pairwise t.Separate := by
  obtain ⟨m, hm, -⟩ := f.suits_body b rfl
  by_cases block : m.kind = .block
  · obtain ⟨parts, nodup⟩ := sound.bodyParts_of_block hm block
    exact separate_of_children sound nodup fun c hc => (parts c).1 (by simpa using hc)
  · rw [bodyParts_of_other hm block]
    simp

theorem bodyParts_covers (below : t.Below b d) :
    t.Silent d ∨ ∃ c, some c ∈ t.bodyParts (some b) ∧ t.Below c d := by
  obtain ⟨m, hm, -⟩ := f.suits_body b rfl
  by_cases block : m.kind = .block
  · rcases below.cases_top with rfl | ⟨c, part, below⟩
    · exact .inl (silent_of_kind hm (by rw [block]; rfl))
    · exact .inr ⟨c, ((sound.bodyParts_of_block hm block).1 c).2 part, below⟩
  · exact .inr ⟨b, by simp [bodyParts_of_other hm block], below⟩

end

/-! ### The plan of a function -/

variable (sound : t.Sound) (f : t.FunctionAt i n outer name parameters body)

theorem mem_visited :
    c ∈ (Plan.mk outer (some .function) (parameters.nodes ++ t.bodyParts body)).visited ↔
      some c ∈ outer ++ parameters.nodes ∨ some c ∈ t.bodyParts body := by
  simp [Plan.visited, or_assoc]

theorem exists_body (inside : some c ∈ t.bodyParts body) : ∃ b, body = some b :=
  match body with
  | some b => ⟨b, rfl⟩
  | none => nomatch inside

include sound f

theorem apart :
    (Plan.mk outer (some .function) (parameters.nodes ++ t.bodyParts body)).visited.Pairwise
      t.Separate := by
  rw [Plan.visited, ← List.append_assoc, List.filterMap_append, List.pairwise_append]
  refine ⟨?_, ?_, ?_⟩
  · exact separate_of_children sound f.front_nodup fun c hc =>
      f.mem_children_front (by simpa using hc)
  · cases body with
    | none => exact .nil
    | some b => exact f.bodyParts_apart sound
  · intro a ha c hc d below below'
    have front : some a ∈ outer ++ parameters.nodes := by simpa using ha
    have inside : some c ∈ t.bodyParts body := by simpa using hc
    obtain ⟨b, rfl⟩ := exists_body inside
    have above := (f.bodyPart sound inside).1
    have both := Below.apart sound (f.mem_children_front front) (f.mem_children (by simp)) below
      (above.trans below')
    exact f.ne_body_of_front front (congrArg some both)

theorem covers (below : t.Below i d) : d = i ∨
    (∃ c ∈ (Plan.mk outer (some .function) (parameters.nodes ++ t.bodyParts body)).visited,
      t.Below c d) ∨ t.Silent d := by
  rcases below.cases_top with rfl | ⟨c, part, below⟩
  · exact .inl rfl
  right
  rcases f.part_cases part with ⟨m, hm, modifier⟩ | member
  · exact .inr (sound.silentBelow_of_modifier hm modifier d below)
  rcases List.mem_cons.1 member with rfl | member
  · rcases f.named with ⟨rfl, -⟩ | ⟨rfl, plain⟩
    · exact .inl ⟨c, mem_visited.2 (.inl (by simp)), below⟩
    · obtain ⟨m, hm, kind⟩ := f.suits_name c rfl
      rw [plain] at kind
      exact .inr (sound.silentBelow_of_outerName hm (isOuterName_of_name kind) d below)
  rcases List.mem_append.1 member with parameter | isBody
  · exact .inl ⟨c, mem_visited.2 (.inl (List.mem_append_right _ parameter)), below⟩
  · obtain rfl := List.mem_singleton.1 isBody
    rcases f.bodyParts_covers sound below with silent | ⟨c', inside, below'⟩
    · exact .inr silent
    · exact .inl ⟨c', mem_visited.2 (.inr inside), below'⟩

theorem inner (inside : some c ∈ parameters.nodes ++ t.bodyParts body) :
    t.LookedIn c i ∧ t.Nearest t.OwnsScope c i ∧ t.Nearest t.HoldsHoisted c i := by
  rcases List.mem_append.1 inside with parameter | inside
  · have within : some c ∈ parameters.nodes ++ [body] := List.mem_append_left _ parameter
    have owned := sound.mem_children.1 (f.mem_children (List.mem_cons_of_mem _ within))
    exact ⟨.inside owned f.ownsScope (f.not_namedOutside within), .here owned f.ownsScope,
      .here owned f.holdsHoisted⟩
  · obtain ⟨b, rfl⟩ := exists_body inside
    exact ⟨f.lookedIn_bodyPart sound inside, (f.bodyPart sound inside).2.2⟩

theorem plans : t.Plans i n ⟨outer, some .function, parameters.nodes ++ t.bodyParts body⟩ where
  below := by
    intro c looked
    rcases mem_visited.1 looked with front | inside
    · have part := f.mem_children_front front
      exact ⟨.of_child part .self, sound.child_lt part⟩
    · obtain ⟨b, rfl⟩ := exists_body inside
      have part : b ∈ t.children (some i) := f.mem_children (by simp)
      have below := (f.bodyPart sound inside).1
      exact ⟨.of_child part below, Nat.lt_of_le_of_lt (below.le sound) (sound.child_lt part)⟩
  apart := f.apart sound
  covers := fun _ => f.covers sound
  noBody := by
    intro c looked
    rcases mem_visited.1 looked with front | inside
    · exact f.not_isFunctionBody_front front
    · obtain ⟨b, rfl⟩ := exists_body inside
      exact (f.bodyPart sound inside).2.1
  outer := fun _ before => .inl (f.isClosed_outer before)
  opens := by
    intro kind same
    cases same
    exact ⟨NodeKind.opensScope_of_isFunction f.isFunction,
      (NodeKind.holdsHoisted_of_isFunction f.isFunction).symm⟩
  shut := nofun
  inner := fun _ inside =>
    .inr (.inr ⟨NodeKind.holdsHoisted_of_isFunction f.isFunction, (f.inner sound inside).2⟩)
  before := fun _ before =>
    ⟨sound.mem_children.1 (f.mem_children_front (List.mem_append_left _ before)),
      fun _ => f.namedOutside before⟩
  within := fun _ inside => ⟨(f.inner sound inside).1, (f.inner sound inside).2.1⟩

end FunctionAt

theorem plans_function (sound : t.Sound) (hn : t.nodes[i]? = some n)
    (function : n.kind.isFunction = true) {modifiers : Option NodeList} {isAsync isGenerator : Bool}
    {name : Child} {parameters : NodeList} {body : Child} {isArrow : Bool}
    (hc : t.Construct i n
      (.function modifiers isAsync isGenerator name parameters body isArrow))
    (outer : List Child) (named : outer = [name] ∧ n.kind.isNamedOutside = true ∨
      outer = [] ∧ Record.functionName n.kind = NodeKind.isName) :
    t.Plans i n ⟨outer, some .function, parameters.nodes ++ t.bodyParts body⟩ :=
  FunctionAt.plans sound ⟨hn, function, named, _, _, _, _, hc⟩

/-! ### Every node -/

theorem plans_children (sound : t.Sound) (hn : t.nodes[i]? = some n)
    (plain : n.kind.opensScope = false) :
    t.Plans i n ⟨(t.children (some i)).map some, none, []⟩ := by
  refine plans_plain sound hn _ (fun c => ?_) ?_ plain
  · simp
  · simpa using sound.children_nodup i

theorem plans_pair (sound : t.Sound) (hn : t.nodes[i]? = some n) {r : Record}
    (hc : t.Construct i n r) {name value : Child} (parts : r.parts = [name, value])
    (plain : n.kind.opensScope = false) : t.Plans i n ⟨[name, value], none, []⟩ := by
  refine plans_plain sound hn _ (fun c => ?_) ?_ plain
  · rw [hc.mem_children hn, parts]
  · rw [← parts]
    exact hc.nodup

theorem Sound.plans_named (sound : t.Sound) (hn : t.nodes[i]? = some n)
    (kind : n.kind = .importDeclaration ∨ n.kind = .token .identifier) :
    t.Plans i n ⟨[], none, []⟩ := by
  have plain : n.kind.opensScope = false := by
    rcases kind with kind | kind <;> rw [kind] <;> rfl
  refine plans_nothing (fun c part => ?_) plain
  obtain ⟨r, m, kinds, hc, hm, role, suits⟩ := sound.child_role hn part
  have shape := hc.layout.shape
  rcases kind with kind | kind
  · rw [kind] at shape
    cases r <;> cases shape
    simp only [Record.roles, List.mem_cons, Prod.mk.injEq, List.not_mem_nil, or_false] at role
    rcases role with ⟨-, rfl⟩ | ⟨-, rfl⟩
    · exact sound.silentBelow_of_import hm (.inl (eq_of_beq suits))
    · refine sound.silentBelow_of_outerName hm ?_
      rw [NodeKind.isOuterName, suits, Bool.or_true]
  · rw [kind] at shape
    cases r <;> cases shape
    cases role

theorem functionSteps_eq (t : Tree) (i : Nat) (parameters : NodeList) (body : Child) :
    t.functionSteps i parameters body =
      scopeSteps .function i (parameters.nodes ++ t.bodyParts body) := by
  rw [functionSteps, scopeSteps, bodySteps_eq, List.map_append]

theorem containerSteps_eq (t : Tree) (kind : ScopeKind) (i : Nat) :
    t.containerSteps kind i = scopeSteps kind i ((t.children (some i)).map some) := by
  rw [containerSteps, scopeSteps, List.map_map]

/-- Whether some steps of a node are those of a plan for it. -/
def FollowsPlan (t : Tree) (i : Nat) (n : Node) (steps : List BindStep) : Prop :=
  ∃ p : Plan, steps = p.steps i ∧ t.Plans i n p

section

variable {k : NodeKind} {name heritage body : Child} {parameters members : NodeList}
  (sound : t.Sound) (hn : t.nodes[i]? = some n) (same : n.kind = k)
include sound hn same

theorem followsPlan_pair {value : Child} {r : Record} (record : t.record? n = some r)
    (parts : r.parts = [name, value]) (plain : k.opensScope = false) :
    t.FollowsPlan i n [.visit name, .visit value] :=
  ⟨⟨[name, value], none, []⟩, rfl,
    plans_pair sound hn (sound.construct_of_record hn record) parts (same ▸ plain)⟩

theorem followsPlan_function {modifiers : Option NodeList} {isAsync isGenerator isArrow : Bool}
    (record : t.record? n =
      some (.function modifiers isAsync isGenerator name parameters body isArrow))
    (kind : k.isFunction = true) {outer : List Child}
    (named : outer = [name] ∧ k.isNamedOutside = true ∨
      outer = [] ∧ Record.functionName k = NodeKind.isName) :
    t.FollowsPlan i n (outer.map .visit ++ t.functionSteps i parameters body) := by
  subst same
  exact ⟨⟨outer, some .function, parameters.nodes ++ t.bodyParts body⟩,
    congrArg (outer.map .visit ++ ·) (functionSteps_eq t i parameters body),
    plans_function sound hn kind (sound.construct_of_record hn record) outer named⟩

theorem followsPlan_class (record : t.record? n = some (.classLike name heritage members))
    (kind : k.isClass = true) :
    t.FollowsPlan i n
      (.enter .classLike i :: .visit heritage :: (members.nodes.map .visit ++ [.leave])) :=
  ⟨⟨[], some .classLike, heritage :: members.nodes⟩, rfl,
    plans_class sound hn (sound.construct_of_record hn record) (same ▸ kind)⟩

theorem followsPlan_container {kind : ScopeKind} (whole : ¬t.IsFunctionBody i)
    (around : k.opensScope = true ∧ kind.holdsHoisted = k.holdsHoisted ∧ k.isFunction = false)
    (how : k.isBlockLike = true ∨ k.holdsHoisted = true) :
    t.FollowsPlan i n (t.containerSteps kind i) := by
  subst same
  exact ⟨⟨[], some kind, (t.children (some i)).map some⟩, containerSteps_eq t kind i,
    plans_container sound hn around.1 around.2.1 around.2.2 whole how⟩

end

theorem Sound.exists_plan (sound : t.Sound) (hn : t.nodes[i]? = some n)
    (notFile : n.kind ≠ .sourceFile) (whole : ¬t.IsFunctionBody i) :
    ∃ p : Plan, t.steps i = p.steps i ∧ t.Plans i n p := by
  change t.FollowsPlan i n (t.steps i)
  unfold steps
  rw [node?_some, hn]
  simp only
  split
  case h_1 kind record => exact followsPlan_pair sound hn kind record rfl rfl
  case h_2 kind record => exact followsPlan_pair sound hn kind record rfl rfl
  case h_3 kind record => exact followsPlan_function sound hn kind record rfl (.inr ⟨rfl, rfl⟩)
  case h_4 kind record => exact followsPlan_function sound hn kind record rfl (.inr ⟨rfl, rfl⟩)
  case h_5 kind record => exact followsPlan_function sound hn kind record rfl (.inl ⟨rfl, rfl⟩)
  case h_6 kind record => exact followsPlan_function sound hn kind record rfl (.inl ⟨rfl, rfl⟩)
  case h_7 kind record => exact followsPlan_function sound hn kind record rfl (.inl ⟨rfl, rfl⟩)
  case h_8 kind record => exact followsPlan_function sound hn kind record rfl (.inl ⟨rfl, rfl⟩)
  case h_9 kind record => exact followsPlan_function sound hn kind record rfl (.inl ⟨rfl, rfl⟩)
  case h_10 kind record => exact followsPlan_class sound hn kind record rfl
  case h_11 kind record => exact followsPlan_class sound hn kind record rfl
  case h_12 kind => exact followsPlan_container sound hn kind whole ⟨rfl, rfl, rfl⟩ (.inr rfl)
  case h_13 kind => exact followsPlan_container sound hn kind whole ⟨rfl, rfl, rfl⟩ (.inl rfl)
  case h_14 kind => exact followsPlan_container sound hn kind whole ⟨rfl, rfl, rfl⟩ (.inl rfl)
  case h_15 kind => exact followsPlan_container sound hn kind whole ⟨rfl, rfl, rfl⟩ (.inl rfl)
  case h_16 kind => exact followsPlan_container sound hn kind whole ⟨rfl, rfl, rfl⟩ (.inl rfl)
  case h_17 kind => exact followsPlan_container sound hn kind whole ⟨rfl, rfl, rfl⟩ (.inl rfl)
  case h_18 kind => exact followsPlan_container sound hn kind whole ⟨rfl, rfl, rfl⟩ (.inl rfl)
  case h_30 kind => exact ⟨_, rfl, sound.plans_named hn (.inl kind)⟩
  case h_31 kind => exact ⟨_, rfl, sound.plans_named hn (.inr kind)⟩
  case h_32 =>
    have plain : n.kind.opensScope = false := by
      grind [NodeKind.opensScope, NodeKind.holdsHoisted, NodeKind.isFunction, NodeKind.isClass]
    refine ⟨⟨(t.children (some i)).map some, none, []⟩, ?_, plans_children sound hn plain⟩
    simp [Plan.steps, Plan.opened]
  -- The record of a declaration fits its kind, so there is no other one.
  all_goals
    next kind none_ =>
    obtain ⟨r, hc, shape⟩ := sound.construct_of_shape hn (congrArg NodeKind.shape? kind)
    cases r <;> cases shape
    exfalso
    apply none_
    exact hc.record

end Tree

/-! ### Plans from steps -/

namespace Plan

def looked : List BindStep → List Child
  | .visit id :: rest => id :: looked rest
  | _ => []

def ofSteps : List BindStep → Plan
  | .visit id :: rest =>
    let p := ofSteps rest
    { p with outer := id :: p.outer }
  | .enter kind _ :: rest => ⟨[], some kind, looked rest⟩
  | _ => ⟨[], none, []⟩

theorem looked_visits (l : List Child) (rest : List BindStep) :
    looked (l.map .visit ++ .leave :: rest) = l := by
  induction l with
  | nil => rfl
  | cons id l ih => exact congrArg (id :: ·) ih

theorem ofSteps_steps {p : Plan} (shut : p.opens = none → p.inner = []) (i : NodeId) :
    ofSteps (p.steps i) = p := by
  obtain ⟨outer, opens, inner⟩ := p
  induction outer with
  | nil =>
    cases opens with
    | none =>
      obtain rfl : inner = [] := shut rfl
      rfl
    | some kind => exact congrArg (Plan.mk [] (some kind)) (looked_visits inner [])
  | cons id outer ih =>
    have rest : ofSteps (Plan.steps ⟨outer, opens, inner⟩ i) = ⟨outer, opens, inner⟩ := ih shut
    change ofSteps (.visit id :: Plan.steps ⟨outer, opens, inner⟩ i) = _
    rw [ofSteps, rest]

end Plan

namespace Tree

variable {t : Tree}

def planOf (t : Tree) (i : NodeId) : Plan := .ofSteps (t.steps i)

theorem exists_steps (t : Tree) (i : NodeId) :
    ∃ p : Plan, t.steps i = p.steps i ∧ (p.opens = none → p.inner = []) := by
  have nothing : ∃ p : Plan, [] = p.steps i ∧ (p.opens = none → p.inner = []) :=
    ⟨⟨[], none, []⟩, rfl, fun _ => rfl⟩
  have pair (name value : Child) : ∃ p : Plan,
      [.visit name, .visit value] = p.steps i ∧ (p.opens = none → p.inner = []) :=
    ⟨⟨[name, value], none, []⟩, rfl, fun _ => rfl⟩
  have function (outer : List Child) (parameters : NodeList) (body : Child) : ∃ p : Plan,
      outer.map .visit ++ t.functionSteps i parameters body = p.steps i ∧
        (p.opens = none → p.inner = []) := by
    refine ⟨⟨outer, some .function, parameters.nodes ++ t.bodyParts body⟩, ?_, nofun⟩
    rw [functionSteps_eq]
    rfl
  have container (kind : ScopeKind) : ∃ p : Plan,
      t.containerSteps kind i = p.steps i ∧ (p.opens = none → p.inner = []) := by
    refine ⟨⟨[], some kind, (t.children (some i)).map some⟩, ?_, nofun⟩
    rw [containerSteps_eq]
    rfl
  have classLike (heritage : Child) (members : NodeList) : ∃ p : Plan,
      .enter .classLike i :: .visit heritage :: (members.nodes.map .visit ++ [.leave]) =
        p.steps i ∧ (p.opens = none → p.inner = []) :=
    ⟨⟨[], some .classLike, heritage :: members.nodes⟩, rfl, nofun⟩
  have parts : ∃ p : Plan, (t.children (some i)).map (BindStep.visit ∘ some) = p.steps i ∧
      (p.opens = none → p.inner = []) := by
    refine ⟨⟨(t.children (some i)).map some, none, []⟩, ?_, fun _ => rfl⟩
    rw [← List.map_map]
    exact (List.append_nil _).symm
  unfold steps
  split
  · exact nothing
  · split
    all_goals first
      | exact nothing
      | exact pair _ _
      | exact parts
      | exact function [] _ _
      | exact function [_] _ _
      | exact container _
      | exact classLike _ _

theorem planOf_eq {i : NodeId} {p : Plan} (steps : t.steps i = p.steps i)
    (shut : p.opens = none → p.inner = []) : t.planOf i = p := by
  rw [planOf, steps, Plan.ofSteps_steps shut]

theorem steps_eq_planOf (t : Tree) (i : NodeId) : t.steps i = (t.planOf i).steps i := by
  obtain ⟨p, steps, shut⟩ := t.exists_steps i
  rw [planOf_eq steps shut, steps]

end Tree

end PathGuard
