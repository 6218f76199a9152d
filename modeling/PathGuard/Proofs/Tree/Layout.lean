import PathGuard.Proofs.Tree.Growth
/-!
# What constructs are made of

Which kinds of nodes each construct may have as its parts, and which marks it may carry. A tree is
sound when all its nodes keep to this, when what a node names as a part belongs to that node and
to no other one, and when blocks and parentheses are nested in each other only so deeply.
-/

namespace PathGuard

namespace NodeKind

/-! ### Kinds by their role -/

def isName : NodeKind → Bool
  | .token .identifier => true
  | _ => false

def isMemberName : NodeKind → Bool
  | .token .identifier | .token .privateIdentifier => true
  | _ => false

def isLiteral : NodeKind → Bool
  | .token (.literal _) => true
  | _ => false

def isPropertyName (k : NodeKind) : Bool :=
  k.isMemberName || k.isLiteral || k == .computedPropertyName

def isOuterName (k : NodeKind) : Bool := k.isName || k.isLiteral

def isBinding (k : NodeKind) : Bool :=
  k.isName || k == .objectBindingPattern || k == .arrayBindingPattern

/-- A word that is an expression, or begins one. -/
def isOperandWord : NodeKind → Bool
  | .token (.word .trueWord) | .token (.word .falseWord) | .token (.word .nullWord)
  | .token (.word .thisWord) | .token (.word .superWord) | .token (.word .importWord) => true
  | _ => false

def isExpression : NodeKind → Bool
  | .arrayLiteral | .objectLiteral | .propertyAccess | .elementAccess | .callExpression
  | .newExpression | .taggedTemplate | .parenthesized | .functionExpression | .arrowFunction
  | .prefixUnary | .postfixUnary | .binaryExpression | .conditionalExpression
  | .templateExpression | .classExpression | .metaProperty | .awaitExpression
  | .yieldExpression => true
  | k => k.isMemberName || k.isLiteral || k.isOperandWord

def isArgument (k : NodeKind) : Bool := k.isExpression || k == .spreadElement

def isArrayItem (k : NodeKind) : Bool := k.isArgument || k == .omittedExpression

def isPatternItem (k : NodeKind) : Bool := k == .bindingElement || k == .omittedExpression

def isFunction : NodeKind → Bool
  | .functionDeclaration | .functionExpression | .arrowFunction | .methodDeclaration
  | .getAccessor | .setAccessor | .constructorDeclaration => true
  | _ => false

def isClass (k : NodeKind) : Bool := k == .classDeclaration || k == .classExpression

def isObjectMember : NodeKind → Bool
  | .propertyAssignment | .shorthandProperty | .spreadAssignment | .methodDeclaration
  | .getAccessor | .setAccessor => true
  | k => k.isExpression

def isClassMember : NodeKind → Bool
  | .methodDeclaration | .getAccessor | .setAccessor | .constructorDeclaration
  | .propertyDeclaration | .staticBlock => true
  | _ => false

def isStatement : NodeKind → Bool
  | .block | .emptyStatement | .variableStatement | .expressionStatement | .ifStatement
  | .doStatement | .whileStatement | .forStatement | .forInStatement | .forOfStatement
  | .continueStatement | .breakStatement | .returnStatement | .switchStatement
  | .labeledStatement | .throwStatement | .tryStatement | .debuggerStatement
  | .functionDeclaration | .classDeclaration | .importDeclaration | .exportDeclaration => true
  | _ => false

def isForHead (k : NodeKind) : Bool := k.isExpression || k == .variableDeclarationList

def isClause (k : NodeKind) : Bool := k == .caseClause || k == .defaultClause

def isExported (k : NodeKind) : Bool :=
  k.isStatement || k == .exportAssignment || k == .namedExports || k == .namespaceExport

def isTemplate (k : NodeKind) : Bool := k.isLiteral || k == .templateExpression

def isImportBinding (k : NodeKind) : Bool := k == .namespaceImport || k == .namedImports

def isSpecifier (k : NodeKind) : Bool := k == .importSpecifier || k == .exportSpecifier

def isBody (k : NodeKind) : Bool := k == .block || k.isExpression

def isModifier (k : NodeKind) : Bool := k == .token (.word .staticWord)

def isNothing (_ : NodeKind) : Bool := false

end NodeKind

/-! ### Parts -/

def chainMark (isOptional : Bool) : Nat := if isOptional then NodeFlag.optionalChain else 0

namespace Record

def functionName : NodeKind → NodeKind → Bool
  | .functionDeclaration | .functionExpression => NodeKind.isName
  | .arrowFunction => NodeKind.isNothing
  | _ => NodeKind.isPropertyName

/-- The parts of a construct, each with the kinds that it may have. -/
def roles (k : NodeKind) : Record → List (Child × (NodeKind → Bool))
  | identifier _ => []
  | literal _ _ => []
  | computedProperty e => [(e, NodeKind.isExpression)]
  | binary l _ r => [(l, NodeKind.isExpression), (r, NodeKind.isExpression)]
  | unary _ e => [(e, NodeKind.isExpression)]
  | call f args => (f, NodeKind.isExpression) :: (optionalNodes args).map (·, NodeKind.isArgument)
  | access e key _ =>
    [(e, NodeKind.isExpression),
     (key, if k = .propertyAccess then NodeKind.isMemberName else NodeKind.isExpression)]
  | conditional c t f =>
    [(c, NodeKind.isExpression), (t, NodeKind.isExpression), (f, NodeKind.isExpression)]
  | elements l _ =>
    l.nodes.map (·, if k = .arrayLiteral then NodeKind.isArrayItem else NodeKind.isObjectMember)
  | parenthesized e => [(e, NodeKind.isExpression)]
  | template h l => (h, NodeKind.isLiteral) :: l.nodes.map (·, (· == .templateSpan))
  | templateSpan e l => [(e, NodeKind.isExpression), (l, NodeKind.isLiteral)]
  | taggedTemplate t l => [(t, NodeKind.isExpression), (l, NodeKind.isTemplate)]
  | metaProperty _ n => [(n, NodeKind.isMemberName)]
  | spread e => [(e, NodeKind.isExpression)]
  | propertyAssignment n e => [(n, NodeKind.isPropertyName), (e, NodeKind.isExpression)]
  | shorthandProperty n _ e => [(n, NodeKind.isPropertyName), (e, NodeKind.isExpression)]
  | function m _ _ n p b _ =>
    (optionalNodes m).map (·, NodeKind.isModifier) ++
      (n, functionName k) :: (p.nodes.map (·, (· == .parameter)) ++ [(b, NodeKind.isBody)])
  | parameter _ n e => [(n, NodeKind.isBinding), (e, NodeKind.isExpression)]
  | classLike n h l =>
    (n, NodeKind.isName) :: (h, NodeKind.isExpression) :: l.nodes.map (·, NodeKind.isClassMember)
  | propertyDeclaration m n e =>
    (optionalNodes m).map (·, NodeKind.isModifier) ++
      [(n, NodeKind.isPropertyName), (e, NodeKind.isExpression)]
  | block l _ =>
    l.nodes.map (·, if k = .caseBlock then NodeKind.isClause else NodeKind.isStatement)
  | variableList l =>
    l.nodes.map
      (·, if k = .variableStatement then (· == .variableDeclarationList)
        else (· == .variableDeclaration))
  | variableDeclaration n e => [(n, NodeKind.isBinding), (e, NodeKind.isExpression)]
  | bindingPattern l => l.nodes.map (·, NodeKind.isPatternItem)
  | bindingElement _ p n e =>
    [(p, NodeKind.isPropertyName), (n, fun k => k.isBinding || k.isPropertyName),
     (e, NodeKind.isExpression)]
  | expressionStatement e => [(e, NodeKind.isExpression)]
  | ifStatement c t e =>
    [(c, NodeKind.isExpression), (t, NodeKind.isStatement), (e, NodeKind.isStatement)]
  | loop i c u s =>
    [(i, if k = .forStatement then NodeKind.isForHead else NodeKind.isNothing),
     (c, NodeKind.isExpression),
     (u, if k = .forStatement then NodeKind.isExpression else NodeKind.isNothing),
     (s, NodeKind.isStatement)]
  | forInOf _ i e s =>
    [(i, NodeKind.isForHead), (e, NodeKind.isExpression), (s, NodeKind.isStatement)]
  | returnOrThrow e => [(e, NodeKind.isExpression)]
  | jump l => [(l, NodeKind.isName)]
  | labeled l s => [(l, NodeKind.isName), (s, NodeKind.isStatement)]
  | switch e b => [(e, NodeKind.isExpression), (b, (· == .caseBlock))]
  | caseClause e l => (e, NodeKind.isExpression) :: l.nodes.map (·, NodeKind.isStatement)
  | tryStatement t c f => [(t, (· == .block)), (c, (· == .catchClause)), (f, (· == .block))]
  | catchClause d b => [(d, (· == .variableDeclaration)), (b, (· == .block))]
  | importDeclaration c s => [(c, (· == .importClause)), (s, NodeKind.isLiteral)]
  | importClause n b => [(n, NodeKind.isName), (b, NodeKind.isImportBinding)]
  | namedBindings n l => (n, NodeKind.isOuterName) :: l.nodes.map (·, NodeKind.isSpecifier)
  | specifier p n => [(p, NodeKind.isOuterName), (n, NodeKind.isOuterName)]
  | exportDeclaration _ c s => [(c, NodeKind.isExported), (s, NodeKind.isLiteral)]
  | exportAssignment e => [(e, NodeKind.isExpression)]
  | sourceFile l e _ =>
    l.nodes.map (·, NodeKind.isStatement) ++ [(e, (· == .token .endOfFile))]

theorem roles_parts (k : NodeKind) (r : Record) : (r.roles k).map Prod.fst = r.parts := by
  cases r <;> simp [roles, parts, Function.comp_def]

end Record

namespace Tree

def Suits (t : Tree) (kinds : NodeKind → Bool) (id : Child) : Prop :=
  ∀ i, id = some i → ∃ n, t.nodes[i]? = some n ∧ kinds n.kind = true

/-- Whether a construct carries the marks that its parts give it. A link belongs to an optional
chain when it is written with `?.` or when the link before it belongs to one. -/
def Marked (t : Tree) (k : NodeKind) (flags : Nat) : Record → Prop
  | .access e _ questionDot => flags = chainMark (questionDot || t.chained e)
  | .taggedTemplate tag _ => flags = chainMark (t.chained tag)
  | .call callee _ =>
    flags = 0 ∧ (k = .newExpression ∨ t.chained callee = false) ∨
      flags = chainMark true ∧ k = .callExpression
  | .variableList _ => flags < 3
  | _ => flags = 0

/-- Whether a construct has parts of the right kinds, and the right marks. -/
structure Layout (t : Tree) (k : NodeKind) (flags : Nat) (r : Record) : Prop where
  shape : k.shape? = some r.shape
  suits : ∀ q ∈ r.roles k, t.Suits q.2 q.1
  marked : t.Marked k flags r

theorem Suits.none (t : Tree) (kinds : NodeKind → Bool) : t.Suits kinds none := by
  intro i h
  cases h

theorem Suits.of_extends {t t' : Tree} (h : t.Extends t') {kinds : NodeKind → Bool} {id : Child}
    (hs : t.Suits kinds id) : t'.Suits kinds id := by
  intro i hi
  obtain ⟨n, hn, hk⟩ := hs i hi
  obtain ⟨p, hp⟩ := h.node hn
  exact ⟨_, hp, hk⟩

theorem Suits.kind {t : Tree} {kinds : NodeKind → Bool} {i : Nat} {n : Node}
    (hs : t.Suits kinds (some i)) (hn : t.nodes[i]? = some n) : kinds n.kind = true := by
  obtain ⟨m, hm, hk⟩ := hs i rfl
  rw [hn, Option.some.injEq] at hm
  exact hm ▸ hk

theorem chained_of_extends {t t' : Tree} (h : t.Extends t') {id : Child}
    (there : ∀ i, id = some i → ∃ n, t.nodes[i]? = some n) : t'.chained id = t.chained id := by
  cases id with
  | none => rfl
  | some i =>
    obtain ⟨n, hn⟩ := there i rfl
    exact h.chained hn

theorem Marked.of_extends {t t' : Tree} (h : t.Extends t') {k : NodeKind} {flags : Nat}
    {r : Record} (there : ∀ i, some i ∈ r.parts → ∃ n, t.nodes[i]? = some n)
    (hm : t.Marked k flags r) : t'.Marked k flags r := by
  have chain (id : Child) (part : id ∈ r.parts) : t'.chained id = t.chained id :=
    chained_of_extends h fun i hi => there i (hi ▸ part)
  cases r
  case access => simpa only [Marked, chain _ (List.mem_cons_self ..)] using hm
  case taggedTemplate => simpa only [Marked, chain _ (List.mem_cons_self ..)] using hm
  case call => simpa only [Marked, chain _ (List.mem_cons_self ..)] using hm
  all_goals exact hm

theorem Layout.of_extends {t t' : Tree} (h : t.Extends t') {k : NodeKind} {flags : Nat}
    {r : Record} (there : ∀ i, some i ∈ r.parts → ∃ n, t.nodes[i]? = some n)
    (hl : t.Layout k flags r) : t'.Layout k flags r where
  shape := hl.shape
  suits := fun q hq => (hl.suits q hq).of_extends h
  marked := hl.marked.of_extends h there

end Tree

end PathGuard
