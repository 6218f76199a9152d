import PathGuard.Proofs.Scope.Contents
/-!
# Which node declares an identifier

An identifier is declared by one node at most, the nearest around it that declares anything, and in
one form. What a node declares in the scope around it and in the scope that it opens are identifiers,
each of them once.
-/

namespace PathGuard

def Shape.isDeclaring : Shape → Bool
  | .variableDeclaration | .parameter | .function | .classLike | .importDeclaration => true
  | _ => false

namespace Tree

/-- Whether a node declares an identifier, and in which form. -/
inductive DeclaredBy (t : Tree) (d i : NodeId) : DeclarationForm → Prop where
  | catchVariable {pattern value : Child} (kind : t.kind? (some d) = some .variableDeclaration)
      (record : t.recordAt? (some d) = some (.variableDeclaration pattern value))
      (binds : t.Binds pattern i) (clause : t.kind? (t.parent (some d)) = some .catchClause) :
      DeclaredBy t d i .catchVariable
  | blockVariable {pattern value : Child} {n : Node}
      (kind : t.kind? (some d) = some .variableDeclaration)
      (record : t.recordAt? (some d) = some (.variableDeclaration pattern value))
      (binds : t.Binds pattern i) (list : t.node? (t.parent (some d)) = some n)
      (isList : n.kind = .variableDeclarationList)
      (marked : n.hasFlag NodeFlag.blockScoped = true) : DeclaredBy t d i .blockVariable
  | hoistedVariable {pattern value : Child} {n : Node}
      (kind : t.kind? (some d) = some .variableDeclaration)
      (record : t.recordAt? (some d) = some (.variableDeclaration pattern value))
      (binds : t.Binds pattern i) (list : t.node? (t.parent (some d)) = some n)
      (isList : n.kind = .variableDeclarationList)
      (unmarked : n.hasFlag NodeFlag.blockScoped = false) : DeclaredBy t d i .hoistedVariable
  | parameter {rest : Bool} {pattern value : Child} (kind : t.kind? (some d) = some .parameter)
      (record : t.recordAt? (some d) = some (.parameter rest pattern value))
      (binds : t.Binds pattern i) : DeclaredBy t d i .parameter
  | function {modifiers : Option NodeList} {isAsync isGenerator isArrow : Bool} {body : Child}
      {parameters : NodeList} (kind : t.kind? (some d) = some .functionDeclaration ∨
        t.kind? (some d) = some .functionExpression)
      (record : t.recordAt? (some d) =
        some (.function modifiers isAsync isGenerator (some i) parameters body isArrow)) :
      DeclaredBy t d i .function
  | classLike {heritage : Child} {members : NodeList}
      (kind : t.kind? (some d) = some .classDeclaration ∨ t.kind? (some d) = some .classExpression)
      (record : t.recordAt? (some d) = some (.classLike (some i) heritage members)) :
      DeclaredBy t d i .classLike
  | importBinding {clause source : Child} (kind : t.kind? (some d) = some .importDeclaration)
      (record : t.recordAt? (some d) = some (.importDeclaration clause source))
      (imports : t.Imports clause i) (name : t.kind? (some i) = some (.token .identifier)) :
      DeclaredBy t d i .importBinding

def allDeclarations (t : Tree) (d : NodeId) : List Declaration :=
  t.declarations d ++ t.innerDeclarations d

/-- Whether a node may declare something by itself. -/
def MayDeclare (t : Tree) (d : NodeId) : Prop :=
  ∃ n, t.nodes[d]? = some n ∧ n.kind.isDeclaring = true

variable {t : Tree} {d i : NodeId}

/-! ### What is declared is an identifier -/

theorem kind?_of_name (suits : t.Suits NodeKind.isName (some i)) :
    t.kind? (some i) = some (.token .identifier) := by
  obtain ⟨m, hm, kind⟩ := suits i rfl
  unfold NodeKind.isName at kind
  rw [kind?_of_node hm]
  split at kind
  · next is => rw [is]
  · cases kind

theorem kind?_of_outerName {x : String} (suits : t.Suits NodeKind.isOuterName (some i))
    (text : t.identifierText? (some i) = some x) (sound : t.Sound) :
    t.kind? (some i) = some (.token .identifier) := by
  obtain ⟨m, hm, kind⟩ := suits i rfl
  rw [NodeKind.isOuterName, Bool.or_eq_true] at kind
  rcases kind with name | literal
  · apply kind?_of_name
    rintro _ ⟨⟩
    exact ⟨m, hm, name⟩
  · unfold identifierText? at text
    split at text
    · next record =>
      obtain ⟨_, m', ⟨⟩, hm', hc⟩ := sound.construct_of_recordAt? record
      obtain rfl := Option.some.inj (hm.symm.trans hm')
      have shape := hc.layout.shape
      unfold NodeKind.isLiteral at literal
      split at literal
      · next is =>
        rw [is] at shape
        cases shape
      · cases literal
    · cases text

theorem Sound.kind?_of_imports (sound : t.Sound) {clause : Child} {x : String}
    (imports : t.Imports clause i) (text : t.identifierText? (some i) = some x) :
    t.kind? (some i) = some (.token .identifier) := by
  cases imports with
  | default_ record =>
    obtain ⟨_, n, -, -, hc⟩ := sound.construct_of_recordAt? record
    exact kind?_of_name (hc.layout.suits _ (List.mem_cons_self ..))
  | namespace_ _ _ record =>
    obtain ⟨_, n, -, -, hc⟩ := sound.construct_of_recordAt? record
    exact kind?_of_outerName (hc.layout.suits _ (List.mem_cons_self ..)) text sound
  | named _ _ _ _ record =>
    obtain ⟨_, n, -, -, hc⟩ := sound.construct_of_recordAt? record
    exact kind?_of_outerName
      (hc.layout.suits _ (List.mem_cons_of_mem _ (List.mem_cons_self ..))) text sound

theorem Leaf.kind {depth p : Nat} (leaf : t.Leaf depth p i) :
    t.kind? (some i) = some (.token .identifier) := by
  induction leaf with
  | name kind => exact kind
  | element kind record inside ih => exact ih
  | pattern kind record element inside ih => exact ih

theorem Sound.kind?_of_declaredBy (sound : t.Sound) {f : DeclarationForm}
    (declares : t.DeclaredBy d i f) : t.kind? (some i) = some (.token .identifier) := by
  cases declares with
  | catchVariable _ _ binds | blockVariable _ _ binds | hoistedVariable _ _ binds
  | parameter _ _ binds =>
    obtain ⟨p, depth, -, -, leaf⟩ := binds
    exact leaf.kind
  | function kind record =>
    obtain ⟨_, n, ⟨⟩, hn, hc⟩ := sound.construct_of_recordAt? record
    have suits := hc.layout.suits
    rw [Record.roles, List.forall_mem_append, List.forall_mem_cons] at suits
    have named : Record.functionName n.kind = NodeKind.isName := by
      rw [kind?_of_node hn] at kind
      rcases kind with kind | kind <;> rw [Option.some.inj kind] <;> rfl
    exact kind?_of_name (named ▸ suits.2.1)
  | classLike kind record =>
    obtain ⟨_, n, -, -, hc⟩ := sound.construct_of_recordAt? record
    exact kind?_of_name (hc.layout.suits _ (List.mem_cons_self ..))
  | importBinding _ _ _ name => exact name

theorem Sound.exists_text (sound : t.Sound) (name : t.kind? (some i) = some (.token .identifier)) :
    ∃ x, t.identifierText? (some i) = some x := by
  obtain ⟨n, hn, kind⟩ := node_of_kind? name
  obtain ⟨r, hc, shape⟩ := sound.construct_of_shape hn (congrArg NodeKind.shape? kind)
  cases r <;> cases shape
  next text =>
  refine ⟨text, ?_⟩
  unfold identifierText?
  rw [hc.node_record hn]

/-! ### Declarations -/

theorem variableForm_of_catch (clause : t.kind? (t.parent (some d)) = some .catchClause) :
    t.variableForm d = .catchVariable := by
  obtain ⟨n, hn, kind⟩ := Option.map_eq_some_iff.1 clause
  unfold variableForm
  simp only [hn]
  rw [if_pos kind]

theorem variableForm_of_list {n : Node} (list : t.node? (t.parent (some d)) = some n)
    (isList : n.kind = .variableDeclarationList) : t.variableForm d =
      if n.hasFlag NodeFlag.blockScoped then .blockVariable else .hoistedVariable := by
  unfold variableForm
  simp only [list]
  rw [if_neg (by rw [isList]; decide), isList, decide_eq_true rfl, Bool.true_and]

theorem DeclaredBy.exists_declaration (sound : t.Sound) {f : DeclarationForm}
    (declares : t.DeclaredBy d i f) : ∃ e ∈ t.allDeclarations d, e.name = i ∧ e.form = f := by
  obtain ⟨x, text⟩ := sound.exists_text (sound.kind?_of_declaredBy declares)
  have own (form : DeclarationForm) : (⟨i, form, false⟩ : Declaration) ∈ t.ownName form (some i) :=
    mem_ownName.2 ⟨i, x, rfl, text, rfl⟩
  -- the forms of variables differ in what stands around the declaration, not in what is bound
  have variable_ {pattern value : Child} (kind : t.kind? (some d) = some .variableDeclaration)
      (record : t.recordAt? (some d) = some (.variableDeclaration pattern value))
      (binds : t.Binds pattern i) :
      ∃ e ∈ t.allDeclarations d, e.name = i ∧ e.form = t.variableForm d := by
    refine ⟨⟨i, t.variableForm d, t.variableForm d == .hoistedVariable⟩,
      List.mem_append_left _ ?_, rfl, rfl⟩
    unfold declarations
    simp only [kind, record]
    exact List.mem_map_of_mem (mem_boundNames.2 binds)
  cases declares with
  | catchVariable kind record binds clause =>
    rw [← variableForm_of_catch clause]
    exact variable_ kind record binds
  | blockVariable kind record binds list isList marked =>
    have form := variableForm_of_list list isList
    rw [if_pos marked] at form
    exact form ▸ variable_ kind record binds
  | hoistedVariable kind record binds list isList unmarked =>
    have form := variableForm_of_list list isList
    rw [if_neg (by rw [unmarked]; decide)] at form
    exact form ▸ variable_ kind record binds
  | parameter kind record binds =>
    refine ⟨⟨i, .parameter, false⟩, List.mem_append_left _ ?_, rfl, rfl⟩
    unfold declarations
    simp only [kind, record]
    exact List.mem_map_of_mem (mem_boundNames.2 binds)
  | function kind record =>
    refine ⟨⟨i, .function, false⟩, List.mem_append.2 ?_, rfl, rfl⟩
    unfold declarations innerDeclarations
    rcases kind with kind | kind
    · simp only [kind, record]
      exact .inl (own _)
    · simp only [kind, record]
      exact .inr (own _)
  | classLike kind record =>
    refine ⟨⟨i, .classLike, false⟩, List.mem_append.2 ?_, rfl, rfl⟩
    unfold declarations innerDeclarations
    rcases kind with kind | kind
    · simp only [kind, record]
      exact .inl (own _)
    · simp only [kind, record]
      exact .inr (own _)
  | importBinding kind record imports name =>
    refine ⟨⟨i, .importBinding, false⟩, List.mem_append_left _ ?_, rfl, rfl⟩
    unfold declarations
    simp only [kind, record]
    exact sound.mem_importedNames.2 ⟨i, x, imports, text, rfl⟩

theorem Sound.declaredBy_of_declaration (sound : t.Sound) {p : Nat}
    (owned : t.parent (some d) = some p) {e : Declaration} (he : e ∈ t.declarations d) :
    t.DeclaredBy d e.name e.form := by
  unfold declarations at he
  split at he
  · next pattern value kind record =>
    obtain ⟨i, bound, rfl⟩ := List.mem_map.1 he
    have binds := mem_boundNames.1 bound
    obtain ⟨m, hm, kind'⟩ := node_of_kind? kind
    have part := sound.mem_children.2 owned
    have other : d ≠ p := Nat.ne_of_lt (sound.child_lt part)
    show t.DeclaredBy d i (t.variableForm d)
    rcases sound.isScoped_or_isHoisted (.part .self part) other hm kind' with
      ⟨n, list, clause | ⟨isList, marked⟩⟩ | ⟨n, list, isList, unmarked⟩
    · have clause' : t.kind? (t.parent (some d)) = some .catchClause := by
        rw [Tree.kind?, list, Option.map_some, clause]
      rw [variableForm_of_catch clause']
      exact .catchVariable kind record binds clause'
    · rw [variableForm_of_list list isList, if_pos marked]
      exact .blockVariable kind record binds list isList marked
    · rw [variableForm_of_list list isList, if_neg (by rw [unmarked]; decide)]
      exact .hoistedVariable kind record binds list isList unmarked
  · next rest pattern value kind record =>
    obtain ⟨i, bound, rfl⟩ := List.mem_map.1 he
    exact .parameter kind record (mem_boundNames.1 bound)
  · next kind record =>
    obtain ⟨i, x, rfl, text, rfl⟩ := mem_ownName.1 he
    exact .function (.inl kind) record
  · next kind record =>
    obtain ⟨i, x, rfl, text, rfl⟩ := mem_ownName.1 he
    exact .classLike (.inl kind) record
  · next clause source kind record =>
    obtain ⟨i, x, imports, text, rfl⟩ := sound.mem_importedNames.1 he
    exact .importBinding kind record imports (sound.kind?_of_imports imports text)
  · cases he

theorem declaredBy_of_innerDeclaration {e : Declaration} (he : e ∈ t.innerDeclarations d) :
    t.DeclaredBy d e.name e.form := by
  unfold innerDeclarations at he
  split at he
  · next kind record =>
    obtain ⟨i, x, rfl, text, rfl⟩ := mem_ownName.1 he
    exact .classLike (.inr kind) record
  · next kind record =>
    obtain ⟨i, x, rfl, text, rfl⟩ := mem_ownName.1 he
    exact .function (.inr kind) record
  · cases he

/-! ### The declaring node -/

theorem shape_of_isDeclaring {k : NodeKind} (declares : k.isDeclaring = true) :
    ∃ shape, k.shape? = some shape ∧ shape.isDeclaring = true := by
  unfold NodeKind.isDeclaring at declares
  split at declares
  all_goals first
    | exact ⟨_, rfl, rfl⟩
    | cases declares

theorem Construct.not_mayDeclare {n : Node} {r : Record} (hc : t.Construct d n r)
    (hn : t.nodes[d]? = some n) (other : r.shape.isDeclaring = false) : ¬t.MayDeclare d := by
  rintro ⟨m, hm, declares⟩
  obtain rfl := Option.some.inj (hn.symm.trans hm)
  obtain ⟨shape, is, declares⟩ := shape_of_isDeclaring declares
  rw [hc.layout.shape, Option.some.injEq] at is
  rw [← is, other] at declares
  cases declares

theorem Sound.nearest_part (sound : t.Sound) {p c : Nat} {r : Record}
    (record : t.recordAt? (some p) = some r) (part : some c ∈ r.parts)
    (other : r.shape.isDeclaring = false) (near : t.Nearest t.MayDeclare p d) :
    t.Nearest t.MayDeclare c d := by
  obtain ⟨_, n, ⟨⟩, hn, hc⟩ := sound.construct_of_recordAt? record
  exact .further (hc.owns c part) (hc.not_mayDeclare hn other) near

theorem Sound.nearest_of_part (sound : t.Sound) {k : NodeKind} {r : Record} {c : Nat}
    (kind : t.kind? (some d) = some k) (declares : k.isDeclaring = true)
    (record : t.recordAt? (some d) = some r) (part : some c ∈ r.parts) :
    t.Nearest t.MayDeclare c d := by
  obtain ⟨_, n, ⟨⟩, hn, hc⟩ := sound.construct_of_recordAt? record
  rw [kind?_of_node hn, Option.some.injEq] at kind
  exact .here (hc.owns c part) ⟨n, hn, kind ▸ declares⟩

theorem Leaf.nearest (sound : t.Sound) {depth p : Nat} (leaf : t.Leaf depth p i)
    (near : t.Nearest t.MayDeclare p d) : t.Nearest t.MayDeclare i d := by
  induction leaf with
  | name kind => exact near
  | element kind record inside ih =>
    exact ih (sound.nearest_part record (by simp [Record.parts]) rfl near)
  | pattern kind record element inside ih =>
    exact ih (sound.nearest_part record element rfl near)

theorem Imports.nearest (sound : t.Sound) {c : Nat} (imports : t.Imports (some c) i)
    (near : t.Nearest t.MayDeclare c d) : t.Nearest t.MayDeclare i d := by
  have bindings {name bindings : Child} {b : Nat} {r : Record}
      (record : t.recordAt? (some c) = some (.importClause name bindings))
      (record' : t.recordAt? bindings = some r) (same : bindings = some b) :
      t.Nearest t.MayDeclare b d :=
    sound.nearest_part record (by simp [Record.parts, same]) rfl near
  cases imports with
  | default_ record =>
    exact sound.nearest_part record (by simp [Record.parts]) rfl near
  | namespace_ record kind record' =>
    obtain ⟨b, m, same, -⟩ := sound.construct_of_recordAt? record'
    exact sound.nearest_part (same ▸ record') (by simp [Record.parts]) rfl
      (bindings record record' same)
  | named record kind record' part record'' =>
    obtain ⟨b, m, same, -⟩ := sound.construct_of_recordAt? record'
    obtain ⟨e, m', rfl, -⟩ := sound.construct_of_recordAt? record''
    refine sound.nearest_part record'' (by simp [Record.parts]) rfl ?_
    exact sound.nearest_part (same ▸ record') (by simp [Record.parts, part]) rfl
      (bindings record record' same)

theorem Sound.nearest_of_mem (sound : t.Sound) {e : Declaration} (he : e ∈ t.allDeclarations d) :
    t.Nearest t.MayDeclare e.name d := by
  have bound {k : NodeKind} {r : Record} {pattern : Child} (kind : t.kind? (some d) = some k)
      (declares : k.isDeclaring = true) (record : t.recordAt? (some d) = some r)
      (part : pattern ∈ r.parts) {i : NodeId} (binds : t.Binds pattern i) :
      t.Nearest t.MayDeclare i d := by
    obtain ⟨p, depth, rfl, -, leaf⟩ := binds
    exact leaf.nearest sound (sound.nearest_of_part kind declares record part)
  rcases List.mem_append.1 he with outer | inner
  · unfold declarations at outer
    split at outer
    · next kind record =>
      obtain ⟨i, inside, rfl⟩ := List.mem_map.1 outer
      exact bound kind rfl record (by simp [Record.parts]) (mem_boundNames.1 inside)
    · next kind record =>
      obtain ⟨i, inside, rfl⟩ := List.mem_map.1 outer
      exact bound kind rfl record (by simp [Record.parts]) (mem_boundNames.1 inside)
    · next kind record =>
      obtain ⟨i, x, rfl, text, rfl⟩ := mem_ownName.1 outer
      exact sound.nearest_of_part kind rfl record (by simp [Record.parts])
    · next kind record =>
      obtain ⟨i, x, rfl, text, rfl⟩ := mem_ownName.1 outer
      exact sound.nearest_of_part kind rfl record (by simp [Record.parts])
    · next clause source kind record =>
      obtain ⟨i, x, imports, text, rfl⟩ := sound.mem_importedNames.1 outer
      cases clause with
      | none => cases imports with
        | default_ record' | namespace_ record' | named record' => cases record'
      | some c =>
        exact imports.nearest sound
          (sound.nearest_of_part kind rfl record (by simp [Record.parts]))
    · cases outer
  · unfold innerDeclarations at inner
    split at inner
    · next kind record =>
      obtain ⟨i, x, rfl, text, rfl⟩ := mem_ownName.1 inner
      exact sound.nearest_of_part kind rfl record (by simp [Record.parts])
    · next kind record =>
      obtain ⟨i, x, rfl, text, rfl⟩ := mem_ownName.1 inner
      exact sound.nearest_of_part kind rfl record (by simp [Record.parts])
    · cases inner

/-! ### Each identifier once -/

theorem nodup_flatMap_children {β : Type} {l : List Child} {f : Child → List β}
    (once : (l.filterMap id).Nodup) (each : ∀ c ∈ l, (f c).Nodup) (nothing : f none = [])
    (apart : ∀ a b, some a ∈ l → some b ∈ l → ∀ j ∈ f (some a), j ∈ f (some b) → a = b) :
    (l.flatMap f).Nodup := by
  refine List.nodup_flatMap.2 ⟨each, ?_⟩
  refine (List.pairwise_filterMap.1 once).imp_of_mem fun {c c'} hc hc' different j first second => ?_
  cases c with
  | none => exact absurd (nothing ▸ first) List.not_mem_nil
  | some a =>
    cases c' with
    | none => exact absurd (nothing ▸ second) List.not_mem_nil
    | some b => exact different a rfl b rfl (apart a b hc hc' j first second)

theorem Sound.below_of_leaf (sound : t.Sound) {depth p : Nat} (leaf : t.Leaf depth p i) :
    t.Below p i := by
  have part {p c j : Nat} {r : Record} (record : t.recordAt? (some p) = some r)
      (named : some c ∈ r.parts) (below : t.Below c j) : t.Below p j := by
    obtain ⟨_, n, ⟨⟩, hn, hc⟩ := sound.construct_of_recordAt? record
    exact .of_child ((hc.mem_children hn c).2 named) below
  induction leaf with
  | name kind => exact .self
  | @element e name i depth rest property value kind record inside ih =>
    exact part (c := name) record (by simp [Record.parts]) ih
  | pattern kind record element inside ih => exact part record element ih

theorem Sound.nodup_boundNamesWithin (sound : t.Sound) (fuel : Nat) (c : Child) :
    (t.boundNamesWithin fuel c).Nodup := by
  induction fuel generalizing c with
  | zero => exact List.nodup_nil
  | succ fuel ih =>
    have pattern {p : Nat} {elements : NodeList}
        (record : t.recordAt? (some p) = some (.bindingPattern elements)) :
        (elements.nodes.flatMap (t.boundNamesWithin fuel)).Nodup := by
      obtain ⟨_, n, ⟨⟩, hn, hc⟩ := sound.construct_of_recordAt? record
      refine nodup_flatMap_children hc.nodup (fun e _ => ih e) (by cases fuel <;> rfl) ?_
      intro a b ha hb j first second
      obtain ⟨_, -, leaf⟩ := mem_boundNamesWithin.1 first
      obtain ⟨_, -, leaf'⟩ := mem_boundNamesWithin.1 second
      exact Below.apart sound ((hc.mem_children hn a).2 ha) ((hc.mem_children hn b).2 hb)
        (sound.below_of_leaf leaf) (sound.below_of_leaf leaf')
    cases c with
    | none => exact List.nodup_nil
    | some p =>
      unfold boundNamesWithin
      split
      · exact List.nodup_singleton p
      · exact ih _
      · next record => exact pattern record
      · next record => exact pattern record
      · exact List.nodup_nil

theorem nodup_ownName (form : DeclarationForm) (c : Child) :
    ((t.ownName form c).map Declaration.name).Nodup := by
  unfold ownName
  split
  · exact List.nodup_singleton _
  · exact List.nodup_nil

theorem Construct.parent_of_ownName {n : Node} {r : Record} (hc : t.Construct d n r)
    {form : DeclarationForm} {c : Child} (part : c ∈ r.parts) {j : NodeId}
    (own : j ∈ (t.ownName form c).map Declaration.name) : t.parent (some j) = some d := by
  obtain ⟨e, he, rfl⟩ := List.mem_map.1 own
  obtain ⟨i, x, rfl, -, rfl⟩ := mem_ownName.1 he
  exact hc.owns i part

def specifierNames (t : Tree) (element : Child) : List Declaration :=
  match t.recordAt? element with
  | some (.specifier _ name) => t.ownName .importBinding name
  | _ => []

theorem Sound.parent_of_specifierNames (sound : t.Sound) {element : Child} {j : NodeId}
    (inside : j ∈ (t.specifierNames element).map Declaration.name) :
    t.parent (some j) = element := by
  unfold specifierNames at inside
  split at inside
  · next record =>
    obtain ⟨e, n, rfl, hn, hc⟩ := sound.construct_of_recordAt? record
    exact hc.parent_of_ownName (by simp [Record.parts]) inside
  · cases inside

theorem Sound.nodup_importedNames (sound : t.Sound) (clause : Child) :
    ((t.importedNames clause).map Declaration.name).Nodup := by
  unfold importedNames
  split
  · next name bindings record =>
    obtain ⟨c, n, rfl, hn, hc⟩ := sound.construct_of_recordAt? record
    rw [List.map_append, List.nodup_append]
    -- the default is a part of the clause, and all other names belong to nodes before the clause
    have apart {j j' : NodeId} {p : Nat}
        (first : j ∈ (t.ownName .importBinding name).map Declaration.name)
        (second : t.parent (some j') = some p) (less : p < c) : j ≠ j' := by
      rintro rfl
      have owned := hc.parent_of_ownName (List.mem_cons_self ..) first
      exact Nat.ne_of_gt less (Option.some.inj (owned.symm.trans second))
    split
    · next space elements kind record' =>
      obtain ⟨b, m, rfl, hm, hc'⟩ := sound.construct_of_recordAt? record'
      refine ⟨nodup_ownName _ _, nodup_ownName _ _, fun j first j' second => ?_⟩
      exact apart first (hc'.parent_of_ownName (List.mem_cons_self ..) second)
        (hc.before b (by simp [Record.parts]))
    · next space elements record' _ =>
      obtain ⟨b, m, rfl, hm, hc'⟩ := sound.construct_of_recordAt? record'
      change _ ∧ ((elements.nodes.flatMap t.specifierNames).map Declaration.name).Nodup ∧ _
      rw [List.map_flatMap]
      refine ⟨nodup_ownName _ _, nodup_flatMap_children ?_ (fun e _ => ?_) rfl ?_,
        fun j first j' second => ?_⟩
      · exact hc'.nodup.sublist (.filterMap _ (List.sublist_cons_self ..))
      · unfold specifierNames
        split
        · exact nodup_ownName _ _
        · exact List.nodup_nil
      · intro a b' _ _ j first second
        have owned := sound.parent_of_specifierNames first
        exact Option.some.inj (owned.symm.trans (sound.parent_of_specifierNames second))
      · obtain ⟨e, he, rfl⟩ := List.mem_map.1 second
        obtain ⟨element, listed, inside⟩ := List.mem_flatMap.1 he
        have owned := sound.parent_of_specifierNames (List.mem_map_of_mem inside)
        cases element with
        | none => cases inside
        | some e =>
          have low : e < b := hc'.before e (List.mem_cons_of_mem _ listed)
          exact apart first owned (Nat.lt_trans low (hc.before b (by simp [Record.parts])))
    · exact ⟨nodup_ownName _ _, List.nodup_nil, fun _ _ _ second => absurd second List.not_mem_nil⟩
  · exact List.nodup_nil

theorem nodup_innerDeclarations (d : NodeId) :
    ((t.innerDeclarations d).map Declaration.name).Nodup := by
  unfold innerDeclarations
  split
  · exact nodup_ownName _ _
  · exact nodup_ownName _ _
  · exact List.nodup_nil

theorem innerDeclarations_of_declarations {e : Declaration} (he : e ∈ t.declarations d) :
    t.innerDeclarations d = [] := by
  unfold declarations at he
  unfold innerDeclarations
  split at he
  all_goals first
    | cases he
    | (next kind _ => simp only [kind])

/-- A node declares each identifier once. -/
theorem Sound.nodup_allDeclarations (sound : t.Sound) (d : NodeId) :
    ((t.allDeclarations d).map Declaration.name).Nodup := by
  unfold allDeclarations
  by_cases none_ : t.declarations d = []
  · rw [none_]
    exact nodup_innerDeclarations d
  · obtain ⟨e, he⟩ := List.exists_mem_of_ne_nil _ none_
    rw [innerDeclarations_of_declarations he, List.append_nil]
    have identifiers {g : NodeId → Declaration} (names : ∀ i, (g i).name = i) (pattern : Child) :
        (((t.boundNames pattern).map g).map Declaration.name).Nodup := by
      rw [List.map_map]
      have same : Declaration.name ∘ g = id := funext names
      rw [same, List.map_id]
      exact sound.nodup_boundNamesWithin _ pattern
    unfold declarations
    split
    · exact identifiers (fun _ => rfl) _
    · exact identifiers (fun _ => rfl) _
    · exact nodup_ownName _ _
    · exact nodup_ownName _ _
    · exact sound.nodup_importedNames _
    · exact List.nodup_nil

theorem Sound.declaration_unique (sound : t.Sound) {d' : NodeId} {e e' : Declaration}
    (he : e ∈ t.allDeclarations d) (he' : e' ∈ t.allDeclarations d') (same : e.name = e'.name) :
    d = d' ∧ e = e' := by
  have near := sound.nearest_of_mem he
  obtain rfl := near.unique (same ▸ sound.nearest_of_mem he')
  exact ⟨rfl, List.inj_on_of_nodup_map (sound.nodup_allDeclarations d) he he' same⟩

theorem DeclaredBy.unique (sound : t.Sound) {d' : NodeId} {f f' : DeclarationForm}
    (declares : t.DeclaredBy d i f) (declares' : t.DeclaredBy d' i f') : d = d' ∧ f = f' := by
  obtain ⟨e, he, rfl, rfl⟩ := declares.exists_declaration sound
  obtain ⟨e', he', same, rfl⟩ := declares'.exists_declaration sound
  obtain ⟨rfl, rfl⟩ := sound.declaration_unique he he' same.symm
  exact ⟨rfl, rfl⟩

end Tree

end PathGuard
