import Mathlib.Data.List.Induction
import Mathlib.Order.Bounds.Basic
import PathGuard.Proofs.Tree.Growth
/-!
# Trees built by hand

A tree is built by adding one node after the other, with any numbers as its parts: of nodes that are
there, of the node itself, or of nodes that are not there yet. Whatever is added later, each node keeps
its kind and span, the accessor of its shape answers with the record that it was given and every other
one with nothing, and it belongs to the last node that named it as a part when it was there.
-/

namespace PathGuard

/-! ### Accessors -/

namespace Shape

def kinds : Shape → List NodeKind
  | identifier => [.token .identifier, .token .privateIdentifier]
  | literal =>
    [.token (.literal .string), .token (.literal .number), .token (.literal .bigInt),
      .token (.literal .regularExpression), .token (.literal .template),
      .token (.literal .templateHead), .token (.literal .templateMiddle),
      .token (.literal .templateTail)]
  | computedProperty => [.computedPropertyName]
  | binary => [.binaryExpression]
  | unary => [.prefixUnary, .postfixUnary, .awaitExpression, .yieldExpression]
  | call => [.callExpression, .newExpression]
  | access => [.propertyAccess, .elementAccess]
  | conditional => [.conditionalExpression]
  | elements => [.arrayLiteral, .objectLiteral]
  | parenthesized => [.parenthesized]
  | template => [.templateExpression]
  | templateSpan => [.templateSpan]
  | taggedTemplate => [.taggedTemplate]
  | metaProperty => [.metaProperty]
  | spread => [.spreadElement, .spreadAssignment]
  | propertyAssignment => [.propertyAssignment]
  | shorthandProperty => [.shorthandProperty]
  | function =>
    [.functionDeclaration, .functionExpression, .arrowFunction, .methodDeclaration, .getAccessor,
      .setAccessor, .constructorDeclaration]
  | parameter => [.parameter]
  | classLike => [.classDeclaration, .classExpression]
  | propertyDeclaration => [.propertyDeclaration]
  | block => [.block, .caseBlock, .staticBlock]
  | variableList => [.variableStatement, .variableDeclarationList]
  | variableDeclaration => [.variableDeclaration]
  | bindingPattern => [.objectBindingPattern, .arrayBindingPattern]
  | bindingElement => [.bindingElement]
  | expressionStatement => [.expressionStatement]
  | ifStatement => [.ifStatement]
  | loop => [.forStatement, .whileStatement, .doStatement]
  | forInOf => [.forInStatement, .forOfStatement]
  | returnOrThrow => [.returnStatement, .throwStatement]
  | jump => [.breakStatement, .continueStatement]
  | labeled => [.labeledStatement]
  | switch => [.switchStatement]
  | caseClause => [.caseClause, .defaultClause]
  | tryStatement => [.tryStatement]
  | catchClause => [.catchClause]
  | importDeclaration => [.importDeclaration]
  | importClause => [.importClause]
  | namedBindings => [.namespaceImport, .namedImports, .namedExports, .namespaceExport]
  | specifier => [.importSpecifier, .exportSpecifier]
  | exportDeclaration => [.exportDeclaration]
  | exportAssignment => [.exportAssignment]
  | sourceFile => [.sourceFile]

theorem mem_kinds_iff {s : Shape} {k : NodeKind} : k ∈ s.kinds ↔ k.shape? = some s := by
  constructor
  · have listed : ∀ k ∈ s.kinds, k.shape? = some s := by
      cases s <;> decide
    exact listed k
  · intro shape
    unfold NodeKind.shape? at shape
    split at shape
    all_goals cases shape
    all_goals first
      | decide
      | next l => cases l <;> decide

end Shape

namespace Tree

variable {t : Tree}

def ofShape? (t : Tree) (shape : Shape) (n : Node) : Option Record :=
  if n.kind ∈ shape.kinds then n.slot.bind (t.pooled? shape) else none

theorem record?_eq_ofShape? (t : Tree) (n : Node) :
    t.record? n = n.kind.shape?.bind fun shape => t.ofShape? shape n := by
  cases found : n.kind.shape? with
  | none => rw [record?, found]; rfl
  | some shape =>
    rw [Option.bind_some, ofShape?, if_pos (Shape.mem_kinds_iff.2 found), record?, found]
    cases n.slot <;> rfl

end Tree

/-! ### Building -/

/-- One more node: without a record, or with a record and marks. -/
inductive Addition where
  | token (kind : NodeKind) (start stop : Nat)
  | construct (kind : NodeKind) (flags start stop : Nat) (record : Record)

namespace Addition

def kind : Addition → NodeKind
  | token kind .. => kind
  | construct kind .. => kind

def flags : Addition → Nat
  | token .. => 0
  | construct _ flags .. => flags

def start : Addition → Nat
  | token _ start _ => start
  | construct _ _ start .. => start

def stop : Addition → Nat
  | token _ _ stop => stop
  | construct _ _ _ stop _ => stop

def record? : Addition → Option Record
  | token .. => none
  | construct _ _ _ _ record => some record

def parts (a : Addition) : List Child := (a.record?.map Record.parts).getD []

def Fits : Addition → Prop
  | token .. => True
  | construct kind _ _ _ record => kind ∈ record.shape.kinds

instance : DecidablePred Fits
  | token .. => .isTrue trivial
  | construct kind _ _ _ record => inferInstanceAs (Decidable (kind ∈ record.shape.kinds))

theorem Fits.mem_kinds {a : Addition} (h : a.Fits) {r : Record} (given : a.record? = some r) :
    a.kind ∈ r.shape.kinds := by
  cases a with
  | token => cases given
  | construct kind flags start stop record =>
    obtain rfl := Option.some.inj given
    exact h

def apply (a : Addition) (t : Tree) : NodeId × Tree :=
  match a with
  | token kind start stop => t.addToken kind start stop
  | construct kind flags start stop record => t.add kind flags start stop record

end Addition

def Tree.build (steps : List Addition) : Tree :=
  steps.foldl (fun t a => (a.apply t).2) .empty

/-- The additions that name a node as a part when it is there: that of the node itself, or a later
one. -/
def naming (steps : List Addition) (i : Nat) : Set Nat :=
  {q | i ≤ q ∧ ∃ a, steps[q]? = some a ∧ some i ∈ a.parts}

/-! ### One addition -/

namespace Tree

variable {t : Tree} {a : Addition} {i : Nat} {n : Node}

def Stored (t : Tree) (n : Node) : Option Record → Prop
  | none => n.slot = none
  | some r => ∃ slot, n.slot = some slot ∧ t.pooled? r.shape slot = some r

theorem apply_nodes (a : Addition) (t : Tree) :
    (a.apply t).2.nodes = adopt (t.nodes.push ⟨a.kind, a.flags, a.start, a.stop,
      a.record?.map fun r => t.nextSlot r.shape, none⟩) t.size a.parts := by
  cases a <;> rfl

theorem apply_id (a : Addition) (t : Tree) : (a.apply t).1 = t.size := by
  cases a <;> rfl

theorem apply_size (a : Addition) (t : Tree) : (a.apply t).2.size = t.size + 1 := by
  cases a with
  | token kind start stop => exact Array.size_push ..
  | construct kind flags start stop record => exact add_size ..

theorem apply_pools (a : Addition) (t : Tree) : (a.apply t).2.pools.size = t.pools.size := by
  cases a with
  | token => rfl
  | construct => exact Array.size_modify ..

theorem apply_extends (a : Addition) (t : Tree) : t.Extends (a.apply t).2 := by
  cases a with
  | token kind start stop => exact addToken_extends ..
  | construct kind flags start stop record => exact add_extends ..

/-- An older node belongs to the new one if that names it. -/
theorem apply_node_old (there : t.nodes[i]? = some n) (a : Addition) :
    (a.apply t).2.nodes[i]? =
      some (if some i ∈ a.parts then { n with parent := some t.size } else n) := by
  have inside := lt_size_of_node there
  rw [apply_nodes, getElem?_adopt, Array.getElem?_push_lt inside]
  rw [Array.getElem?_eq_getElem inside, Option.some.injEq] at there
  simp [there]

theorem apply_node_new (a : Addition) (t : Tree) :
    (a.apply t).2.nodes[t.size]? = some ⟨a.kind, a.flags, a.start, a.stop,
      a.record?.map fun r => t.nextSlot r.shape,
      if some t.size ∈ a.parts then some t.size else none⟩ := by
  rw [apply_nodes, getElem?_adopt, size, Array.getElem?_push_size, Option.map_some]
  split <;> rfl

theorem Stored.of_extends {t' : Tree} {record? : Option Record} (h : t.Stored n record?)
    (extends_ : t.Extends t') (p : Child) : t'.Stored { n with parent := p } record? := by
  cases record? with
  | none => exact h
  | some r =>
    obtain ⟨slot, place, found⟩ := h
    exact ⟨slot, place, extends_.pool found⟩

theorem stored_apply (pools : t.pools.size = Shape.count) (a : Addition) {p : Child} :
    (a.apply t).2.Stored ⟨a.kind, a.flags, a.start, a.stop,
      a.record?.map fun r => t.nextSlot r.shape, p⟩ a.record? := by
  cases a with
  | token => rfl
  | construct kind flags start stop r => exact ⟨_, rfl, add_pooled_new pools kind flags start stop r⟩

theorem Stored.ofShape? {record? : Option Record} (h : t.Stored n record?)
    (fits : ∀ r, record? = some r → n.kind ∈ r.shape.kinds) (shape : Shape) :
    t.ofShape? shape n = if record?.map Record.shape = some shape then record? else none := by
  cases record? with
  | none =>
    have nothing : n.slot = none := h
    rw [Tree.ofShape?, nothing]
    split <;> rfl
  | some r =>
    obtain ⟨slot, place, found⟩ := h
    have own := Shape.mem_kinds_iff.1 (fits r rfl)
    unfold Tree.ofShape?
    simp only [Shape.mem_kinds_iff, own, place, Option.map_some]
    split
    · next same =>
      obtain rfl := Option.some.inj same
      exact found
    · rfl

end Tree

/-! ### The last one that names a node -/

/-- Whether an answer is the greatest of some numbers, or none where there are none. -/
def IsLast (S : Set Nat) : Option Nat → Prop
  | some q => IsGreatest S q
  | none => S = ∅

theorem IsLast.eq_some_iff {S : Set Nat} {p : Option Nat} (h : IsLast S p) (q : Nat) :
    p = some q ↔ IsGreatest S q := by
  cases p with
  | none =>
    obtain rfl : S = ∅ := h
    exact ⟨nofun, fun greatest => greatest.1.elim⟩
  | some p =>
    have last : IsGreatest S p := h
    constructor
    · intro same
      exact Option.some.inj same ▸ last
    · intro greatest
      exact congrArg some (last.unique greatest)

theorem IsLast.eq_none_iff {S : Set Nat} {p : Option Nat} (h : IsLast S p) : p = none ↔ S = ∅ := by
  cases p with
  | none => exact ⟨fun _ => h, fun _ => rfl⟩
  | some p =>
    have last : IsGreatest S p := h
    refine ⟨nofun, ?_⟩
    rintro rfl
    exact last.1.elim

theorem lt_length_of_mem_naming {steps : List Addition} {i q : Nat} (h : q ∈ naming steps i) :
    q < steps.length := by
  obtain ⟨-, a, found, -⟩ := h
  exact (List.getElem?_eq_some_iff.1 found).1

theorem mem_naming_append {steps : List Addition} {a : Addition} {i q : Nat} :
    q ∈ naming (steps ++ [a]) i ↔
      q ∈ naming steps i ∨ q = steps.length ∧ i ≤ q ∧ some i ∈ a.parts := by
  constructor
  · rintro ⟨behind, b, found, named⟩
    rw [List.getElem?_append] at found
    split at found
    · exact .inl ⟨behind, b, found, named⟩
    · obtain ⟨low, rfl⟩ := List.getElem?_eq_some_iff.1 found
      rw [List.length_singleton] at low
      rw [List.getElem_singleton] at named
      exact .inr ⟨by omega, behind, named⟩
  · rintro (⟨behind, b, found, named⟩ | ⟨rfl, behind, named⟩)
    · refine ⟨behind, b, ?_, named⟩
      rw [List.getElem?_append_left (List.getElem?_eq_some_iff.1 found).1, found]
    · exact ⟨behind, a, List.getElem?_concat_length, named⟩

theorem IsLast.append {steps : List Addition} {a : Addition} {i : Nat} {p : Option Nat}
    (h : IsLast (naming steps i) p) (before : i ≤ steps.length) :
    IsLast (naming (steps ++ [a]) i) (if some i ∈ a.parts then some steps.length else p) := by
  split
  · next named =>
    refine ⟨mem_naming_append.2 (.inr ⟨rfl, before, named⟩), fun q member => ?_⟩
    rcases mem_naming_append.1 member with old | ⟨rfl, -⟩
    · exact Nat.le_of_lt (lt_length_of_mem_naming old)
    · exact Nat.le_refl _
  · next unnamed =>
    have same : naming (steps ++ [a]) i = naming steps i := by
      ext q
      rw [mem_naming_append, or_iff_left fun new => unnamed new.2.2]
    rwa [same]

/-! ### All additions -/

namespace Tree

structure Made (t : Tree) (steps : List Addition) (i : Nat) (a : Addition) (n : Node) : Prop where
  node : t.nodes[i]? = some n
  kind : n.kind = a.kind
  flags : n.flags = a.flags
  start : n.start = a.start
  stop : n.stop = a.stop
  stored : t.Stored n a.record?
  parent : IsLast (naming steps i) n.parent

structure Built (steps : List Addition) (t : Tree) : Prop where
  size : t.size = steps.length
  pools : t.pools.size = Shape.count
  made : ∀ i a, steps[i]? = some a → ∃ n, t.Made steps i a n

theorem built_empty : Built [] empty where
  size := rfl
  pools := by simp [empty]
  made := fun i a found => by rw [List.getElem?_nil] at found; cases found

theorem Made.apply {steps : List Addition} {t : Tree} {i : Nat} {b : Addition} {n : Node}
    (h : t.Made steps i b n) (size : t.size = steps.length) (a : Addition) :
    ∃ n, (a.apply t).2.Made (steps ++ [a]) i b n := by
  have there := apply_node_old h.node a
  have last := h.parent.append (a := a) (size ▸ Nat.le_of_lt (lt_size_of_node h.node))
  rw [size] at there
  split at there
  · next named =>
    rw [if_pos named] at last
    exact ⟨_, there, h.kind, h.flags, h.start, h.stop, h.stored.of_extends (apply_extends a t) _, last⟩
  · next unnamed =>
    rw [if_neg unnamed] at last
    exact ⟨n, there, h.kind, h.flags, h.start, h.stop,
      h.stored.of_extends (apply_extends a t) n.parent, last⟩

theorem made_apply {steps : List Addition} {t : Tree} (pools : t.pools.size = Shape.count)
    (size : t.size = steps.length) (a : Addition) :
    ∃ n, (a.apply t).2.Made (steps ++ [a]) steps.length a n := by
  have there := apply_node_new a t
  have nobody : naming steps steps.length = ∅ := by
    refine Set.eq_empty_of_forall_notMem fun q member => ?_
    exact Nat.not_lt.2 member.1 (lt_length_of_mem_naming member)
  have last : IsLast (naming steps steps.length) none := nobody
  rw [size] at there
  exact ⟨_, there, rfl, rfl, rfl, rfl, stored_apply pools a, last.append (Nat.le_refl _)⟩

theorem Built.apply {steps : List Addition} {t : Tree} (h : Built steps t) (a : Addition) :
    Built (steps ++ [a]) (a.apply t).2 where
  size := by rw [apply_size, h.size, List.length_append, List.length_singleton]
  pools := (apply_pools a t).trans h.pools
  made := by
    intro i b found
    rw [List.getElem?_append] at found
    split at found
    · obtain ⟨n, made⟩ := h.made i b found
      exact made.apply h.size a
    · obtain ⟨low, rfl⟩ := List.getElem?_eq_some_iff.1 found
      rw [List.length_singleton] at low
      obtain rfl : i = steps.length := by omega
      rw [List.getElem_singleton]
      exact made_apply h.pools h.size a

theorem built_build (steps : List Addition) : Built steps (build steps) := by
  induction steps using List.reverseRecOn with
  | nil => exact built_empty
  | append_singleton steps a ih =>
    rw [build, List.foldl_append]
    exact ih.apply a

/-- Whether a node is what was added with its number, for all who read it: its kind, marks and span are
those that it was given, the accessor of its shape answers with its record and every other accessor with
nothing, and it belongs to the last node that named it. -/
structure Keeps (t : Tree) (steps : List Addition) (i : Nat) (a : Addition) : Prop where
  header : ∃ n, t.node? (some i) = some n ∧ n.kind = a.kind ∧ n.flags = a.flags ∧
    n.start = a.start ∧ n.stop = a.stop ∧ ∀ shape, t.ofShape? shape n =
      if a.record?.map Record.shape = some shape then a.record? else none
  record : t.recordAt? (some i) = a.record?
  parent : ∀ q, t.parent (some i) = some q ↔ IsGreatest (naming steps i) q
  orphan : t.parent (some i) = none ↔ naming steps i = ∅

theorem record?_of_ofShape? {t : Tree} {n : Node} {record? : Option Record}
    (fits : ∀ r, record? = some r → n.kind ∈ r.shape.kinds)
    (read : ∀ shape, t.ofShape? shape n =
      if record?.map Record.shape = some shape then record? else none) :
    t.record? n = record? := by
  rw [record?_eq_ofShape?]
  cases record? with
  | none =>
    cases n.kind.shape? with
    | none => rfl
    | some shape => exact read shape
  | some r =>
    rw [Shape.mem_kinds_iff.1 (fits r rfl), Option.bind_some, read]
    exact if_pos rfl

/-- Whatever is added, in whatever order and with whatever parts, each node keeps what it was given. -/
theorem build_keeps (steps : List Addition) (fits : ∀ a ∈ steps, a.Fits) :
    (build steps).size = steps.length ∧
      (∀ a : Addition, (a.apply (build steps)).1 = steps.length) ∧
      ∀ i a, steps[i]? = some a → (build steps).Keeps steps i a := by
  have built := built_build steps
  refine ⟨built.size, fun a => (apply_id a _).trans built.size, fun i a found => ?_⟩
  obtain ⟨n, made⟩ := built.made i a found
  have fit : ∀ r, a.record? = some r → n.kind ∈ r.shape.kinds := by
    intro r given
    rw [made.kind]
    exact (fits a (List.mem_of_getElem? found)).mem_kinds given
  have read := made.stored.ofShape? fit
  have parent := parent_of_node made.node
  exact {
    header := ⟨n, made.node, made.kind, made.flags, made.start, made.stop, read⟩
    record := (recordAt?_of_node made.node).trans (record?_of_ofShape? fit read)
    parent := fun q => by rw [parent, made.parent.eq_some_iff]
    orphan := by rw [parent, made.parent.eq_none_iff] }

/-- A name that is given to two constructs belongs to the later one, which names itself as well and a
node that is not there yet. -/
theorem build_keeps_shared :
    let steps : List Addition := [
      .construct (.token .identifier) 0 1 2 (.identifier "a"),
      .construct .parenthesized 0 0 3 (.parenthesized (some 0)),
      .construct .conditionalExpression 0 0 9 (.conditional (some 0) (some 2) (some 3)),
      .token (.token .identifier) 8 9]
    (∀ a ∈ steps, a.Fits) ∧ (build steps).recordAt? (some 1) = some (.parenthesized (some 0)) ∧
      (build steps).recordAt? (some 3) = none ∧ IsGreatest (naming steps 0) 2 ∧
      IsGreatest (naming steps 2) 2 ∧ naming steps 3 = ∅ := by
  intro steps
  have fits : ∀ a ∈ steps, a.Fits := by decide
  obtain ⟨-, -, keeps⟩ := build_keeps steps fits
  refine ⟨fits, (keeps 1 _ rfl).record, (keeps 3 _ rfl).record, ?_, ?_, ?_⟩
  · exact ((keeps 0 _ rfl).parent 2).1 (by decide)
  · exact ((keeps 2 _ rfl).parent 2).1 (by decide)
  · exact (keeps 3 _ rfl).orphan.1 (by decide)

end Tree

end PathGuard
