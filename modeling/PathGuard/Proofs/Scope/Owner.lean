import PathGuard.Proofs.Tree.Family
import PathGuard.Scope.Declaration
/-!
# Which scope a declaration belongs to

The nodes that open scopes, and the nearest one around a node. Expressions, patterns and what else
is closed declare nothing in the scopes around them, whatever lies in them: a function or a class in
them has scopes of its own.
-/

namespace PathGuard

namespace NodeKind

def holdsHoisted (k : NodeKind) : Bool := k.isFunction || k == .staticBlock || k == .sourceFile

def opensScope (k : NodeKind) : Bool :=
  k.holdsHoisted || k.isClass || k == .block || k == .caseBlock || k == .forStatement ||
    k == .forInStatement || k == .forOfStatement || k == .catchClause

theorem holdsHoisted_of_isFunction {k : NodeKind} (function : k.isFunction = true) :
    k.holdsHoisted = true := by
  rw [holdsHoisted, function]
  rfl

theorem opensScope_of_isFunction {k : NodeKind} (function : k.isFunction = true) :
    k.opensScope = true := by
  rw [opensScope, holdsHoisted_of_isFunction function]
  rfl

/-- Whether the name of a function is looked at before the function's scope is opened. -/
def isNamedOutside (k : NodeKind) : Bool :=
  k.isFunction && k != .functionDeclaration && k != .functionExpression

end NodeKind

namespace Tree

def IsFunctionBody (t : Tree) (i : Nat) : Prop :=
  ∃ p m n, t.parent (some i) = some p ∧ t.nodes[p]? = some m ∧ m.kind.isFunction = true ∧
    t.nodes[i]? = some n ∧ n.kind = .block

def OwnsScope (t : Tree) (i : Nat) : Prop :=
  ∃ n, t.nodes[i]? = some n ∧ n.kind.opensScope = true ∧ ¬t.IsFunctionBody i

def HoldsHoisted (t : Tree) (i : Nat) : Prop :=
  ∃ n, t.nodes[i]? = some n ∧ n.kind.holdsHoisted = true

/-- The nearest node with a property around a node, the node itself left out. -/
inductive Nearest (t : Tree) (P : Nat → Prop) : Nat → Nat → Prop where
  | here {i p : Nat} (parent : t.parent (some i) = some p) (holds : P p) : Nearest t P i p
  | further {i p o : Nat} (parent : t.parent (some i) = some p) (not : ¬P p)
      (rest : Nearest t P p o) : Nearest t P i o

def outsideName (t : Tree) (i : Nat) : Child :=
  match t.kind? (some i), t.recordAt? (some i) with
  | some k, some (.function _ _ _ name _ _ _) => if k.isNamedOutside then name else none
  | _, _ => none

def NamedOutside (t : Tree) (i c : Nat) : Prop := t.outsideName i = some c

instance (t : Tree) (i c : Nat) : Decidable (t.NamedOutside i c) :=
  inferInstanceAs (Decidable (t.outsideName i = some c))

/-- Whether a node lies in the name of a function that is looked at before the function's scope is
opened, with no other scope between. -/
inductive InName (t : Tree) : Nat → Nat → Prop where
  | here {c i : Nat} (parent : t.parent (some c) = some i) (name : t.NamedOutside i c) : InName t c i
  | further {c p i : Nat} (parent : t.parent (some c) = some p) (not : ¬t.OwnsScope p)
      (rest : InName t p i) : InName t c i

/-- Whether the scope of a node is the one that is open when another node is looked at. -/
inductive LookedIn (t : Tree) : Nat → Nat → Prop where
  | inside {c o : Nat} (parent : t.parent (some c) = some o) (owns : t.OwnsScope o)
      (notName : ¬t.NamedOutside o c) : LookedIn t c o
  | named {c i o : Nat} (parent : t.parent (some c) = some i) (name : t.NamedOutside i c)
      (rest : LookedIn t i o) : LookedIn t c o
  | further {c p o : Nat} (parent : t.parent (some c) = some p) (not : ¬t.OwnsScope p)
      (rest : LookedIn t p o) : LookedIn t c o

variable {t : Tree}

theorem not_ownsScope_of_kind {i : Nat} {k : NodeKind} (kind : t.kind? (some i) = some k)
    (plain : k.opensScope = false) : ¬t.OwnsScope i := by
  rintro ⟨n, hn, opens, -⟩
  rw [kind?_of_node hn, Option.some.injEq] at kind
  rw [kind, plain] at opens
  cases opens

theorem not_holdsHoisted_of_kind {i : Nat} {k : NodeKind} (kind : t.kind? (some i) = some k)
    (plain : k.holdsHoisted = false) : ¬t.HoldsHoisted i := by
  rintro ⟨n, hn, holds⟩
  rw [kind?_of_node hn, Option.some.injEq] at kind
  rw [kind, plain] at holds
  cases holds

theorem IsFunctionBody.not_ownsScope {i : Nat} (body : t.IsFunctionBody i) : ¬t.OwnsScope i := by
  rintro ⟨-, -, -, whole⟩
  exact whole body

theorem Nearest.unique {P : Nat → Prop} {i o o' : Nat} (h : t.Nearest P i o)
    (h' : t.Nearest P i o') : o = o' := by
  induction h with
  | here parent holds =>
    cases h' with
    | here parent' holds' => exact Option.some.inj (parent.symm.trans parent')
    | further parent' not rest =>
      have same := Option.some.inj (parent.symm.trans parent')
      exact absurd (same ▸ holds) not
  | further parent not rest ih =>
    cases h' with
    | here parent' holds' =>
      have same := Option.some.inj (parent.symm.trans parent')
      exact absurd (same ▸ holds') not
    | further parent' not' rest' =>
      have same := Option.some.inj (parent.symm.trans parent')
      exact ih (same ▸ rest')

theorem Nearest.holds {P : Nat → Prop} {i o : Nat} (h : t.Nearest P i o) : P o := by
  induction h with
  | here parent holds => exact holds
  | further parent not rest ih => exact ih

end Tree

/-! ### Closed kinds -/

def Shape.isClosed : Shape → Bool
  | .identifier | .literal | .computedProperty | .binary | .unary | .call | .access | .conditional
  | .elements | .parenthesized | .template | .templateSpan | .taggedTemplate | .metaProperty
  | .spread | .propertyAssignment | .shorthandProperty | .propertyDeclaration | .bindingPattern
  | .bindingElement => true
  | _ => false

namespace NodeKind

/-- Whether a node declares nothing in the scopes around it, nor does anything that lies in it. -/
def isClosed (k : NodeKind) : Bool :=
  match k.shape? with
  | none => true
  | some shape =>
    shape.isClosed || k.isFunction && k != .functionDeclaration || k == .classExpression ||
      k == .staticBlock

def Closed (kinds : NodeKind → Bool) : Prop := ∀ k, kinds k = true → k.isClosed = true

namespace Closed

theorem eq {k : NodeKind} (h : k.isClosed = true) : Closed (· == k) :=
  fun _ same => eq_of_beq same ▸ h

theorem or {kinds kinds' : NodeKind → Bool} (h : Closed kinds) (h' : Closed kinds') :
    Closed fun k => kinds k || kinds' k := by
  intro k either
  rcases Bool.or_eq_true_iff.1 either with one | other
  · exact h k one
  · exact h' k other

theorem ite {c : Prop} [Decidable c] {kinds kinds' : NodeKind → Bool} (h : Closed kinds)
    (h' : Closed kinds') : Closed (if c then kinds else kinds') := by
  split
  · exact h
  · exact h'

theorem nothing : Closed isNothing := fun _ h => nomatch h

theorem name : Closed isName := by
  intro k h
  unfold isName at h
  split at h
  · rfl
  · cases h

theorem member : Closed isMemberName := by
  intro k h
  unfold isMemberName at h
  split at h
  · rfl
  · rfl
  · cases h

theorem literal : Closed isLiteral := by
  intro k h
  unfold isLiteral at h
  split at h
  · rfl
  · cases h

theorem modifier : Closed isModifier := eq rfl

theorem operandWord : Closed isOperandWord := by
  intro k h
  unfold isOperandWord at h
  split at h <;> first | rfl | cases h

theorem expression : Closed isExpression := by
  intro k h
  unfold isExpression at h
  split at h
  all_goals first
    | rfl
    | exact ((member.or literal).or operandWord) _ h

theorem argument : Closed isArgument := expression.or (eq rfl)

theorem arrayItem : Closed isArrayItem := argument.or (eq rfl)

theorem propertyName : Closed isPropertyName := (member.or literal).or (eq rfl)

theorem binding : Closed isBinding := (name.or (eq rfl)).or (eq rfl)

theorem patternItem : Closed isPatternItem := (eq rfl).or (eq rfl)

theorem objectMember : Closed isObjectMember := by
  intro k h
  unfold isObjectMember at h
  split at h
  all_goals first
    | rfl
    | exact expression _ h

theorem classMember : Closed isClassMember := by
  intro k h
  unfold isClassMember at h
  split at h <;> first | rfl | cases h

theorem template : Closed isTemplate := literal.or (eq rfl)

end Closed

end NodeKind

open NodeKind in
theorem Record.closed_roles {r : Record} (closed : r.shape.isClosed = true) (k : NodeKind) :
    ∀ q ∈ r.roles k, Closed q.2 := by
  have rest (c : Child) {kinds : NodeKind → Bool} (h : Closed kinds) :
      ∀ q ∈ [(c, kinds)], Closed q.2 := by
    intro q hq
    rw [List.mem_singleton] at hq
    exact hq ▸ h
  have more (c : Child) {kinds : NodeKind → Bool} {places : List (Child × (NodeKind → Bool))}
      (h : Closed kinds) (h' : ∀ q ∈ places, Closed q.2) :
      ∀ q ∈ (c, kinds) :: places, Closed q.2 := List.forall_mem_cons.2 ⟨h, h'⟩
  have all (l : List Child) {kinds : NodeKind → Bool} (h : Closed kinds) :
      ∀ q ∈ l.map (·, kinds), Closed q.2 := List.forall_mem_map.2 fun _ _ => h
  cases r
  case identifier => simp [roles]
  case literal => simp [roles]
  case computedProperty => exact rest _ .expression
  case binary => exact more _ .expression (rest _ .expression)
  case unary => exact rest _ .expression
  case call => exact more _ .expression (all _ .argument)
  case access => exact more _ .expression (rest _ (.ite .member .expression))
  case conditional => exact more _ .expression (more _ .expression (rest _ .expression))
  case elements => exact all _ (.ite .arrayItem .objectMember)
  case parenthesized => exact rest _ .expression
  case template => exact more _ .literal (all _ (.eq rfl))
  case templateSpan => exact more _ .expression (rest _ .literal)
  case taggedTemplate => exact more _ .expression (rest _ .template)
  case metaProperty => exact rest _ .member
  case spread => exact rest _ .expression
  case propertyAssignment => exact more _ .propertyName (rest _ .expression)
  case shorthandProperty => exact more _ .propertyName (rest _ .expression)
  case propertyDeclaration =>
    exact List.forall_mem_append.2
      ⟨all _ .modifier, more _ .propertyName (rest _ .expression)⟩
  case bindingPattern => exact all _ .patternItem
  case bindingElement =>
    exact more _ .propertyName (more _ (.or .binding .propertyName) (rest _ .expression))
  all_goals cases closed

theorem Record.closed_functionName (k : NodeKind) : NodeKind.Closed (functionName k) := by
  unfold functionName
  split
  · exact .name
  · exact .name
  · exact .nothing
  · exact .propertyName

theorem Record.closed_class (k : NodeKind) (name heritage : Child) (members : NodeList) :
    ∀ q ∈ (Record.classLike name heritage members).roles k, NodeKind.Closed q.2 :=
  List.forall_mem_cons.2 ⟨.name, List.forall_mem_cons.2 ⟨.expression,
    List.forall_mem_map.2 fun _ _ => .classMember⟩⟩

end PathGuard
