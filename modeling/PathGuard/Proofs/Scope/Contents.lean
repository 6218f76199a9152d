import PathGuard.Proofs.Grammar.Program
import PathGuard.Proofs.Scope.Run
import PathGuard.Rule.Source
/-!
# What scopes hold

The scopes of a text hold just the names that the declarations in it make: a name bound by `let` or
`const`, by a `catch`, a function, a class or an import in the nearest scope, one bound by `var` in
that of the nearest function, a parameter in that of its function, and the name of a function or
class expression in its own.
-/

namespace PathGuard

namespace Tree

/-! ### Declarations -/

/-- Whether an identifier is reached from what is bound, `depth` patterns and elements deep. -/
inductive Leaf (t : Tree) : (depth : Nat) → NodeId → NodeId → Prop where
  | name {i : NodeId} (kind : t.kind? (some i) = some (.token .identifier)) : Leaf t 0 i i
  | element {e name i : NodeId} {depth : Nat} {rest : Bool} {property value : Child}
      (kind : t.kind? (some e) = some .bindingElement)
      (record : t.recordAt? (some e) = some (.bindingElement rest property (some name) value))
      (inside : Leaf t depth name i) : Leaf t (depth + 1) e i
  | pattern {p e i : NodeId} {depth : Nat} {elements : NodeList}
      (kind : t.kind? (some p) = some .objectBindingPattern ∨
        t.kind? (some p) = some .arrayBindingPattern)
      (record : t.recordAt? (some p) = some (.bindingPattern elements))
      (element : some e ∈ elements.nodes) (inside : Leaf t depth e i) : Leaf t (depth + 1) p i

/-- Whether a pattern binds an identifier. -/
def Binds (t : Tree) (pattern : Child) (i : NodeId) : Prop :=
  ∃ p depth, pattern = some p ∧ depth ≤ maxPatternDepth ∧ t.Leaf depth p i

def BindsName (t : Tree) (pattern : Child) (x : String) : Prop :=
  ∃ p depth i, pattern = some p ∧ depth ≤ maxPatternDepth ∧ t.Leaf depth p i ∧
    t.identifierText? (some i) = some x

def IsScoped (t : Tree) (declaration : NodeId) : Prop :=
  ∃ n, t.node? (t.parent (some declaration)) = some n ∧ (n.kind = .catchClause ∨
    n.kind = .variableDeclarationList ∧ n.hasFlag NodeFlag.blockScoped = true)

def IsHoisted (t : Tree) (declaration : NodeId) : Prop :=
  ∃ n, t.node? (t.parent (some declaration)) = some n ∧ n.kind = .variableDeclarationList ∧
    n.hasFlag NodeFlag.blockScoped = false

inductive Imports (t : Tree) (clause : Child) (i : NodeId) : Prop where
  | default_ {bindings : Child} (record : t.recordAt? clause = some (.importClause (some i) bindings))
  | namespace_ {name bindings : Child} {elements : NodeList}
      (record : t.recordAt? clause = some (.importClause name bindings))
      (kind : t.kind? bindings = some .namespaceImport)
      (record' : t.recordAt? bindings = some (.namedBindings (some i) elements))
  | named {name bindings space element property : Child} {elements : NodeList}
      (record : t.recordAt? clause = some (.importClause name bindings))
      (kind : t.kind? bindings = some .namedImports)
      (record' : t.recordAt? bindings = some (.namedBindings space elements))
      (part : element ∈ elements.nodes)
      (record'' : t.recordAt? element = some (.specifier property (some i)))

inductive ImportsName (t : Tree) (clause : Child) (x : String) : Prop where
  | default_ {name bindings : Child} (record : t.recordAt? clause = some (.importClause name bindings))
      (text : t.identifierText? name = some x)
  | namespace_ {name bindings space : Child} {elements : NodeList}
      (record : t.recordAt? clause = some (.importClause name bindings))
      (kind : t.kind? bindings = some .namespaceImport)
      (record' : t.recordAt? bindings = some (.namedBindings space elements))
      (text : t.identifierText? space = some x)
  | named {name bindings space element property bound : Child} {elements : NodeList}
      (record : t.recordAt? clause = some (.importClause name bindings))
      (kind : t.kind? bindings = some .namedImports)
      (record' : t.recordAt? bindings = some (.namedBindings space elements))
      (part : element ∈ elements.nodes)
      (record'' : t.recordAt? element = some (.specifier property bound))
      (text : t.identifierText? bound = some x)

/-- Whether a declaration below a node puts a name in the scope of `c`. -/
inductive Declares (t : Tree) (top : NodeId) (c : NodeId) (x : String) : Prop where
  | blockVariable {d : NodeId} {pattern value : Child} (below : t.Below top d)
      (kind : t.kind? (some d) = some .variableDeclaration)
      (record : t.recordAt? (some d) = some (.variableDeclaration pattern value))
      (how : t.IsScoped d) (binds : t.BindsName pattern x) (owner : t.Nearest t.OwnsScope d c)
  | hoistedVariable {d : NodeId} {pattern value : Child} (below : t.Below top d)
      (kind : t.kind? (some d) = some .variableDeclaration)
      (record : t.recordAt? (some d) = some (.variableDeclaration pattern value))
      (how : t.IsHoisted d) (binds : t.BindsName pattern x) (holder : t.Nearest t.HoldsHoisted d c)
  | function {d : NodeId} {modifiers : Option NodeList} {isAsync isGenerator isArrow : Bool}
      {name body : Child} {parameters : NodeList} (below : t.Below top d)
      (kind : t.kind? (some d) = some .functionDeclaration)
      (record : t.recordAt? (some d) =
        some (.function modifiers isAsync isGenerator name parameters body isArrow))
      (text : t.identifierText? name = some x) (owner : t.Nearest t.OwnsScope d c)
  | classLike {d : NodeId} {name heritage : Child} {members : NodeList} (below : t.Below top d)
      (kind : t.kind? (some d) = some .classDeclaration)
      (record : t.recordAt? (some d) = some (.classLike name heritage members))
      (text : t.identifierText? name = some x) (owner : t.Nearest t.OwnsScope d c)
  | imported {d : NodeId} {clause source : Child} (below : t.Below top d)
      (kind : t.kind? (some d) = some .importDeclaration)
      (record : t.recordAt? (some d) = some (.importDeclaration clause source))
      (binds : t.ImportsName clause x) (owner : t.Nearest t.OwnsScope d c)
  | parameter {d : NodeId} {rest : Bool} {pattern value : Child} {n : Node} (below : t.Below top d)
      (kind : t.kind? (some d) = some .parameter)
      (record : t.recordAt? (some d) = some (.parameter rest pattern value))
      (binds : t.BindsName pattern x) (part : t.parent (some d) = some c)
      (node : t.node? (some c) = some n) (function : n.kind.isFunction = true)
  | functionName {modifiers : Option NodeList} {isAsync isGenerator isArrow : Bool}
      {name body : Child} {parameters : NodeList} (below : t.Below top c)
      (kind : t.kind? (some c) = some .functionExpression)
      (record : t.recordAt? (some c) =
        some (.function modifiers isAsync isGenerator name parameters body isArrow))
      (text : t.identifierText? name = some x)
  | className {name heritage : Child} {members : NodeList} (below : t.Below top c)
      (kind : t.kind? (some c) = some .classExpression)
      (record : t.recordAt? (some c) = some (.classLike name heritage members))
      (text : t.identifierText? name = some x)

variable {t : Tree}

theorem mem_boundNamesWithin {fuel : Nat} {p i : NodeId} :
    i ∈ t.boundNamesWithin fuel (some p) ↔ ∃ depth < fuel, t.Leaf depth p i := by
  induction fuel generalizing p with
  | zero => simp [boundNamesWithin]
  | succ fuel ih =>
    unfold boundNamesWithin
    constructor
    · intro h
      split at h
      · next kind =>
        obtain rfl := List.mem_singleton.1 h
        exact ⟨0, Nat.succ_pos fuel, .name kind⟩
      · next rest property name value kind record =>
        cases name with
        | none => cases fuel <;> cases h
        | some name =>
          obtain ⟨depth, low, leaf⟩ := ih.1 h
          exact ⟨depth + 1, Nat.succ_lt_succ low, .element kind record leaf⟩
      · next elements kind record =>
        obtain ⟨e, part, h⟩ := List.mem_flatMap.1 h
        cases e with
        | none => cases fuel <;> cases h
        | some e =>
          obtain ⟨depth, low, leaf⟩ := ih.1 h
          exact ⟨depth + 1, Nat.succ_lt_succ low, .pattern (.inl kind) record part leaf⟩
      · next elements kind record =>
        obtain ⟨e, part, h⟩ := List.mem_flatMap.1 h
        cases e with
        | none => cases fuel <;> cases h
        | some e =>
          obtain ⟨depth, low, leaf⟩ := ih.1 h
          exact ⟨depth + 1, Nat.succ_lt_succ low, .pattern (.inr kind) record part leaf⟩
      · cases h
    · rintro ⟨depth, low, leaf⟩
      cases leaf with
      | name kind => simp [kind]
      | element kind record inside =>
        simp only [kind, record]
        exact ih.2 ⟨_, Nat.lt_of_succ_lt_succ low, inside⟩
      | pattern kind record part inside =>
        have found := List.mem_flatMap.2 ⟨_, part, ih.2 ⟨_, Nat.lt_of_succ_lt_succ low, inside⟩⟩
        rcases kind with kind | kind
        · simp only [kind, record]
          exact found
        · simp only [kind, record]
          exact found

theorem mem_boundNames {pattern : Child} {i : NodeId} :
    i ∈ t.boundNames pattern ↔ t.Binds pattern i := by
  constructor
  · intro bound
    cases pattern with
    | none => cases bound
    | some p =>
      obtain ⟨depth, low, leaf⟩ := mem_boundNamesWithin.1 bound
      exact ⟨p, depth, rfl, Nat.le_of_lt_succ low, leaf⟩
  · rintro ⟨p, depth, rfl, low, leaf⟩
    exact mem_boundNamesWithin.2 ⟨depth, Nat.lt_succ_of_le low, leaf⟩

theorem bindsName_iff {pattern : Child} {x : String} : t.BindsName pattern x ↔
    ∃ i ∈ t.boundNames pattern, t.identifierText? (some i) = some x := by
  constructor
  · rintro ⟨p, depth, i, same, low, leaf, text⟩
    exact ⟨i, mem_boundNames.2 ⟨p, depth, same, low, leaf⟩, text⟩
  · rintro ⟨i, bound, text⟩
    obtain ⟨p, depth, same, low, leaf⟩ := mem_boundNames.1 bound
    exact ⟨p, depth, i, same, low, leaf, text⟩

theorem mem_ownName {form : DeclarationForm} {name : Child} {e : Declaration} :
    e ∈ t.ownName form name ↔
      ∃ i x, name = some i ∧ t.identifierText? (some i) = some x ∧ e = ⟨i, form, false⟩ := by
  unfold ownName
  split
  · next i x text => simp [text]
  · next none_ =>
    constructor
    · intro no
      cases no
    · rintro ⟨i, x, rfl, text, -⟩
      exact absurd text (none_ i x rfl)

theorem exists_ownName (form : DeclarationForm) {name : Child} {x : String} :
    (∃ e ∈ t.ownName form name, t.identifierText? (some e.name) = some x) ↔
      t.identifierText? name = some x := by
  constructor
  · rintro ⟨e, he, text⟩
    obtain ⟨i, -, rfl, -, rfl⟩ := mem_ownName.1 he
    exact text
  · intro text
    cases name with
    | none => cases text
    | some i => exact ⟨⟨i, form, false⟩, mem_ownName.2 ⟨i, x, rfl, text, rfl⟩, text⟩

theorem exists_of_identifierText? {id : Child} {x : String} (text : t.identifierText? id = some x) :
    ∃ i, id = some i := by
  cases id with
  | none => cases text
  | some i => exact ⟨i, rfl⟩

theorem Sound.mem_importedNames (sound : t.Sound) {clause : Child} {e : Declaration} :
    e ∈ t.importedNames clause ↔ ∃ i x, t.Imports clause i ∧
      t.identifierText? (some i) = some x ∧ e = ⟨i, .importBinding, false⟩ := by
  unfold importedNames
  constructor
  · intro he
    split at he
    · next name bindings record =>
      rcases List.mem_append.1 he with own | other
      · obtain ⟨i, x, rfl, text, same⟩ := mem_ownName.1 own
        exact ⟨i, x, .default_ record, text, same⟩
      · split at other
        · next space elements kind record' =>
          obtain ⟨i, x, rfl, text, same⟩ := mem_ownName.1 other
          exact ⟨i, x, .namespace_ record kind record', text, same⟩
        · next space elements record' notSpace =>
          obtain ⟨element, part, inside⟩ := List.mem_flatMap.1 other
          split at inside
          · next property bound record'' =>
            obtain ⟨i, x, rfl, text, same⟩ := mem_ownName.1 inside
            refine ⟨i, x, .named record ?_ record' part record'', text, same⟩
            obtain ⟨_, n, rfl, hn, hc⟩ := sound.construct_of_recordAt? record
            obtain ⟨b, m, rfl, hm, hc'⟩ := sound.construct_of_recordAt? record'
            -- bindings that are no namespace are a list: there is no third kind
            have suits := hc.layout.suits (some b, NodeKind.isImportBinding) (by simp [Record.roles])
            have kind : m.kind.isImportBinding = true := suits.kind hm
            rw [NodeKind.isImportBinding, Bool.or_eq_true, beq_iff_eq, beq_iff_eq] at kind
            rw [kind?_of_node hm] at notSpace ⊢
            rcases kind with space | named
            · exact (notSpace (congrArg some space)).elim
            · exact congrArg some named
          · cases inside
        · cases other
    · cases he
  · rintro ⟨i, x, imports, text, rfl⟩
    have own : (⟨i, .importBinding, false⟩ : Declaration) ∈ t.ownName .importBinding (some i) :=
      mem_ownName.2 ⟨i, x, rfl, text, rfl⟩
    cases imports with
    | default_ record =>
      rw [record]
      exact List.mem_append_left _ own
    | namespace_ record kind record' =>
      simp only [record, kind, record']
      exact List.mem_append_right _ own
    | named record kind record' part record'' =>
      simp only [record, kind, record']
      refine List.mem_append_right _ (List.mem_flatMap.2 ⟨_, part, ?_⟩)
      simp only [record'']
      exact own

theorem Sound.importsName_iff (sound : t.Sound) {clause : Child} {x : String} :
    t.ImportsName clause x ↔
      ∃ e ∈ t.importedNames clause, t.identifierText? (some e.name) = some x := by
  constructor
  · intro imports
    obtain ⟨i, identifier, text⟩ : ∃ i, t.Imports clause i ∧ t.identifierText? (some i) = some x := by
      rcases imports with ⟨record, text⟩ | ⟨record, kind, record', text⟩ |
        ⟨record, kind, record', part, record'', text⟩
      all_goals obtain ⟨i, rfl⟩ := exists_of_identifierText? text
      · exact ⟨i, .default_ record, text⟩
      · exact ⟨i, .namespace_ record kind record', text⟩
      · exact ⟨i, .named record kind record' part record'', text⟩
    exact ⟨_, sound.mem_importedNames.2 ⟨i, x, identifier, text, rfl⟩, text⟩
  · rintro ⟨e, he, text⟩
    obtain ⟨i, _, imports, -, rfl⟩ := sound.mem_importedNames.1 he
    cases imports with
    | default_ record => exact .default_ record text
    | namespace_ record kind record' => exact .namespace_ record kind record' text
    | named record kind record' part record'' => exact .named record kind record' part record'' text

/-! ### What declarations stand in -/

theorem variable_roles {r : Record} {k : NodeKind} :
    ∀ q ∈ r.roles k, q.2 .variableDeclaration = true →
      r.shape = .variableList ∧ k ≠ .variableStatement ∨ r.shape = .catchClause := by
  have function : Record.functionName k .variableDeclaration = false := by
    unfold Record.functionName
    split <;> rfl
  cases r
  all_goals simp +decide [Record.roles, Record.shape, function, ite_apply, or_imp, forall_and]

theorem parameter_roles {r : Record} {k : NodeKind} :
    ∀ q ∈ r.roles k, q.2 .parameter = true → r.shape = .function := by
  cases r
  all_goals simp +decide [Record.roles, Record.shape, ite_apply, or_imp, forall_and]

theorem kind_of_variableList {k : NodeKind} (shape : k.shape? = some .variableList) :
    k = .variableStatement ∨ k = .variableDeclarationList := by
  cases k
  case token k => cases k <;> cases shape
  all_goals cases shape
  · exact .inl rfl
  · exact .inr rfl

theorem kind_of_catchClause {k : NodeKind} (shape : k.shape? = some .catchClause) :
    k = .catchClause := by
  cases k
  case token k => cases k <;> cases shape
  all_goals cases shape
  rfl

theorem isFunction_of_shape {k : NodeKind} (shape : k.shape? = some .function) :
    k.isFunction = true := by
  cases k
  case token k => cases k <;> cases shape
  all_goals cases shape
  all_goals rfl

theorem Sound.scoped_or_hoisted (sound : t.Sound) {d p : Nat} {m n : Node}
    (hm : t.nodes[d]? = some m) (kind : m.kind = .variableDeclaration)
    (hn : t.nodes[p]? = some n) (part : d ∈ t.children (some p)) :
    n.kind = .catchClause ∨ n.kind = .variableDeclarationList := by
  obtain ⟨r, m', kinds, hc, hm', role, suits⟩ := sound.child_role hn part
  rw [hm, Option.some.injEq] at hm'
  rw [← hm', kind] at suits
  have shape := hc.layout.shape
  rcases variable_roles _ role suits with ⟨same, other⟩ | same
  · exact .inr ((kind_of_variableList (same ▸ shape)).resolve_left other)
  · exact .inl (kind_of_catchClause (same ▸ shape))

theorem Sound.function_of_parameter (sound : t.Sound) {d p : Nat} {m n : Node}
    (hm : t.nodes[d]? = some m) (kind : m.kind = .parameter)
    (hn : t.nodes[p]? = some n) (part : d ∈ t.children (some p)) : n.kind.isFunction = true := by
  obtain ⟨r, m', kinds, hc, hm', role, suits⟩ := sound.child_role hn part
  rw [hm, Option.some.injEq] at hm'
  rw [← hm', kind] at suits
  have shape := hc.layout.shape
  exact isFunction_of_shape (parameter_roles _ role suits ▸ shape)

theorem Sound.importedNames_hoisted (sound : t.Sound) {clause : Child} :
    ∀ e ∈ t.importedNames clause, e.hoisted = false := by
  intro e he
  obtain ⟨i, x, -, -, rfl⟩ := sound.mem_importedNames.1 he
  rfl

/-! ### Forms of variables -/

theorem IsScoped.variableForm {d : Nat} (h : t.IsScoped d) :
    t.variableForm d ≠ .hoistedVariable := by
  obtain ⟨n, parent, how⟩ := h
  unfold Tree.variableForm
  simp only [parent]
  rcases how with clause | ⟨list, flag⟩
  · rw [if_pos clause]
    decide
  · rw [if_neg (by rw [list]; decide), if_pos (by rw [list, flag]; rfl)]
    decide

theorem IsHoisted.variableForm {d : Nat} (h : t.IsHoisted d) :
    t.variableForm d = .hoistedVariable := by
  obtain ⟨n, parent, list, flag⟩ := h
  unfold Tree.variableForm
  simp only [parent]
  rw [if_neg (by rw [list]; decide), if_neg (by rw [flag]; simp)]

theorem Below.parent_of_ne (sound : t.Sound) {top d : Nat} (below : t.Below top d)
    (other : d ≠ top) : ∃ p n, d ∈ t.children (some p) ∧ t.parent (some d) = some p ∧
      t.nodes[p]? = some n := by
  cases below with
  | self => exact absurd rfl other
  | part above part =>
    have owned := sound.mem_children.1 part
    obtain ⟨n, r, hn, -⟩ := sound.belongs owned
    exact ⟨_, n, part, owned, hn⟩

theorem Sound.isScoped_or_isHoisted (sound : t.Sound) {top d : Nat} {m : Node}
    (below : t.Below top d) (other : d ≠ top) (hm : t.nodes[d]? = some m)
    (kind : m.kind = .variableDeclaration) : t.IsScoped d ∨ t.IsHoisted d := by
  obtain ⟨p, n, part, owned, hn⟩ := below.parent_of_ne sound other
  have parent : t.node? (t.parent (some d)) = some n := by rw [owned, node?_some, hn]
  rcases sound.scoped_or_hoisted hm kind hn part with clause | list
  · exact .inl ⟨n, parent, .inl clause⟩
  · cases flag : n.hasFlag NodeFlag.blockScoped with
    | true => exact .inl ⟨n, parent, .inr ⟨list, flag⟩⟩
    | false => exact .inr ⟨n, parent, list, flag⟩

theorem Sound.nearest_of_parameter (sound : t.Sound) {d p c : Nat} {m n : Node}
    (hm : t.nodes[d]? = some m) (kind : m.kind = .parameter) (hn : t.nodes[p]? = some n)
    (part : d ∈ t.children (some p)) :
    n.kind.isFunction = true ∧ (t.Nearest t.OwnsScope d c ↔ c = p) := by
  have function := sound.function_of_parameter hm kind hn part
  have near : t.Nearest t.OwnsScope d p :=
    .here (sound.mem_children.1 part) (ownsScope_of_isFunction hn function)
  exact ⟨function, fun near' => near'.unique near, fun same => same ▸ near⟩

/-! ### All declarations -/

theorem declares_of_declaration (sound : t.Sound) {top d c : Nat} {x : String} {n : Node}
    (hn : t.nodes[top]? = some n) (file : n.kind = .sourceFile) (below : t.Below top d)
    {e : Declaration} (he : e ∈ t.declarations d) (text : t.identifierText? (some e.name) = some x)
    (near : t.Nearest (if e.hoisted then t.HoldsHoisted else t.OwnsScope) d c) :
    t.Declares top c x := by
  have lower {m : Node} (hm : t.nodes[d]? = some m) (other : m.kind ≠ .sourceFile) : d ≠ top := by
    rintro rfl
    rw [hn, Option.some.injEq] at hm
    exact other (hm ▸ file)
  unfold declarations at he
  split at he
  · next pattern value kind record =>
    obtain ⟨i, bound, rfl⟩ := List.mem_map.1 he
    have binds : t.BindsName pattern x := bindsName_iff.2 ⟨i, bound, text⟩
    obtain ⟨m, hm, kind'⟩ := node_of_kind? kind
    rcases sound.isScoped_or_isHoisted below (lower hm (by rw [kind']; decide)) hm kind' with how | how
    · rw [if_neg (by simpa using how.variableForm)] at near
      exact .blockVariable below kind record how binds near
    · rw [if_pos (by simpa using how.variableForm)] at near
      exact .hoistedVariable below kind record how binds near
  · next rest pattern value kind record =>
    obtain ⟨i, bound, rfl⟩ := List.mem_map.1 he
    have binds : t.BindsName pattern x := bindsName_iff.2 ⟨i, bound, text⟩
    obtain ⟨m, hm, kind'⟩ := node_of_kind? kind
    obtain ⟨p, n', part, owned, hn'⟩ :=
      below.parent_of_ne sound (lower hm (by rw [kind']; decide))
    obtain ⟨function, only⟩ := sound.nearest_of_parameter hm kind' hn' part (c := c)
    obtain rfl := only.1 near
    exact .parameter below kind record binds owned hn' function
  · next name _ _ _ kind record =>
    obtain ⟨i, y, rfl, text', rfl⟩ := mem_ownName.1 he
    exact .function below kind record text near
  · next name _ _ kind record =>
    obtain ⟨i, y, rfl, text', rfl⟩ := mem_ownName.1 he
    exact .classLike below kind record text near
  · next clause _ kind record =>
    rw [sound.importedNames_hoisted e he] at near
    exact .imported below kind record (sound.importsName_iff.2 ⟨e, he, text⟩) near
  · cases he

theorem declares_of_innerDeclaration {top d : Nat} {x : String} (below : t.Below top d)
    {e : Declaration} (he : e ∈ t.innerDeclarations d)
    (text : t.identifierText? (some e.name) = some x) : t.Declares top d x := by
  unfold innerDeclarations at he
  split at he
  · next name _ _ kind record =>
    exact .className below kind record ((exists_ownName _).1 ⟨e, he, text⟩)
  · next name _ _ _ kind record =>
    exact .functionName below kind record ((exists_ownName _).1 ⟨e, he, text⟩)
  · cases he

theorem declaresBelow_of_own (form : DeclarationForm) {top d c : Nat} {x : String} {name : Child}
    (below : t.Below top d) (own : t.declarations d = t.ownName form name)
    (text : t.identifierText? name = some x) (owner : t.Nearest t.OwnsScope d c) :
    t.DeclaresBelow top c x := by
  obtain ⟨e, he, text'⟩ := (exists_ownName form).2 text
  refine ⟨d, below, .inl ⟨e, own ▸ he, text', ?_⟩⟩
  rw [Scopes.ownName_hoisted e he]
  exact owner

theorem declaresBelow_of_variable {top d c : Nat} {x : String} {pattern value : Child}
    (below : t.Below top d) (kind : t.kind? (some d) = some .variableDeclaration)
    (record : t.recordAt? (some d) = some (.variableDeclaration pattern value))
    (binds : t.BindsName pattern x)
    (near : t.Nearest (if t.variableForm d == .hoistedVariable then t.HoldsHoisted else t.OwnsScope)
      d c) : t.DeclaresBelow top c x := by
  obtain ⟨i, bound, text⟩ := bindsName_iff.1 binds
  refine ⟨d, below, .inl ⟨⟨i, t.variableForm d, t.variableForm d == .hoistedVariable⟩, ?_, text,
    near⟩⟩
  unfold declarations
  simp only [kind, record]
  exact List.mem_map_of_mem bound

/-- The declarations of the names that scopes hold, told apart by what they are. -/
theorem Sound.declaresBelow_iff (sound : t.Sound) {top c : Nat} {x : String} {n : Node}
    (hn : t.nodes[top]? = some n) (file : n.kind = .sourceFile) :
    t.DeclaresBelow top c x ↔ t.Declares top c x := by
  constructor
  · rintro ⟨d, below, ⟨e, he, text, near⟩ | ⟨rfl, e, he, text⟩⟩
    · exact declares_of_declaration sound hn file below he text near
    · exact declares_of_innerDeclaration below he text
  · intro declares
    cases declares with
    | blockVariable below kind record how binds owner =>
      refine declaresBelow_of_variable below kind record binds ?_
      rwa [if_neg (by simpa using how.variableForm)]
    | hoistedVariable below kind record how binds holder =>
      refine declaresBelow_of_variable below kind record binds ?_
      rwa [if_pos (by simpa using how.variableForm)]
    | function below kind record text owner =>
      refine declaresBelow_of_own .function below ?_ text owner
      unfold declarations
      simp only [kind, record]
    | classLike below kind record text owner =>
      refine declaresBelow_of_own .classLike below ?_ text owner
      unfold declarations
      simp only [kind, record]
    | @imported d clause _ below kind record binds owner =>
      obtain ⟨e, he, text⟩ := sound.importsName_iff.1 binds
      refine ⟨d, below, .inl ⟨e, ?_, text, ?_⟩⟩
      · unfold declarations
        simp only [kind, record]
        exact he
      · rw [sound.importedNames_hoisted e he]
        exact owner
    | @parameter d _ _ _ n below kind record binds part node function =>
      obtain ⟨i, bound, text⟩ := bindsName_iff.1 binds
      refine ⟨d, below, .inl ⟨⟨i, .parameter, false⟩, ?_, text, ?_⟩⟩
      · unfold declarations
        simp only [kind, record]
        exact List.mem_map_of_mem bound
      · obtain ⟨m, hm, kind'⟩ := node_of_kind? kind
        exact (sound.nearest_of_parameter hm kind' node (sound.mem_children.2 part)).2.2 rfl
    | functionName below kind record text =>
      obtain ⟨e, he, text'⟩ := (exists_ownName .function).2 text
      refine ⟨c, below, .inr ⟨rfl, e, ?_, text'⟩⟩
      unfold innerDeclarations
      simp only [kind, record]
      exact he
    | className below kind record text =>
      obtain ⟨e, he, text'⟩ := (exists_ownName .classLike).2 text
      refine ⟨c, below, .inr ⟨rfl, e, ?_, text'⟩⟩
      unfold innerDeclarations
      simp only [kind, record]
      exact he

end Tree

/-- The scopes of every text hold just the names that its declarations put there, also where the
text has syntax problems: a declared name stands in the scope of its node, and in each scope stands
nothing but names declared for its node. -/
theorem parseFile_scopes_hold (fileName source : String) :
    (let file := parseFile fileName source
    ∃ root, file.root = some root ∧
      (∀ c x, file.scopes.Has c x ↔ file.tree.Declares root c x) ∧
      ∀ id scope, file.scopes.scope? id = some scope →
        ∀ x, x ∈ scope.table ↔ file.tree.Declares root scope.container x) := by
  intro file
  obtain ⟨sound, root, n, isRoot, hn, kind, -⟩ := parseFile_sound fileName source
  obtain ⟨once, has⟩ := Scopes.ofTree_spec sound hn kind
  have holds (c : NodeId) (x : String) :
      file.scopes.Has c x ↔ file.tree.Declares root c x := by
    rw [← sound.declaresBelow_iff hn kind, ← has, ParsedFile.scopes, isRoot]
  refine ⟨root, isRoot, holds, fun id scope there x => ?_⟩
  rw [← holds]
  constructor
  · exact fun inside => ⟨id, scope, there, rfl, inside⟩
  · rintro ⟨id', scope', there', same, inside⟩
    rw [ParsedFile.scopes, isRoot] at there there'
    obtain rfl := once id' id scope' scope there' there same
    rw [there, Option.some.injEq] at there'
    exact there' ▸ inside

example : ((parseFile "block.ts" "{ var x; let y; }").scopes.scopes.toList.map
    fun scope => scope.table.toList.map Prod.fst) = [["x"], ["y"]] := by decide +kernel

end PathGuard
