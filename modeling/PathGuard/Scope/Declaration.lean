import PathGuard.Scope.Basic
/-!
# What a node declares

Which names a node declares, in which form, and whether they rise to the scope of the function
around it; and in which order the parts of a node are bound, with the scopes that it opens. Both
depend on the tree alone.
-/

namespace PathGuard

def maxPatternDepth : Nat := 100

structure Declaration where
  name : NodeId
  form : DeclarationForm
  hoisted : Bool
  deriving DecidableEq, Repr

inductive BindStep where
  | visit (id : Child)
  | enter (kind : ScopeKind) (container : NodeId)
  | leave
  deriving DecidableEq, Repr

namespace Tree

/-! ### Names -/

/-- The identifiers that a name or pattern binds, `fuel` patterns and elements deep. -/
def boundNamesWithin (t : Tree) : (fuel : Nat) → Child → List NodeId
  | 0, _ => []
  | _ + 1, none => []
  | fuel + 1, some i =>
    match t.kind? (some i), t.recordAt? (some i) with
    | some (.token .identifier), _ => [i]
    | some .bindingElement, some (.bindingElement _ _ name _) => t.boundNamesWithin fuel name
    | some .objectBindingPattern, some (.bindingPattern elements) =>
      elements.nodes.flatMap (t.boundNamesWithin fuel)
    | some .arrayBindingPattern, some (.bindingPattern elements) =>
      elements.nodes.flatMap (t.boundNamesWithin fuel)
    | _, _ => []

def boundNames (t : Tree) (id : Child) : List NodeId := t.boundNamesWithin (maxPatternDepth + 1) id

def ownName (t : Tree) (form : DeclarationForm) (id : Child) : List Declaration :=
  match id, t.identifierText? id with
  | some i, some _ => [⟨i, form, false⟩]
  | _, _ => []

/-! ### Declarations -/

/-- How the variables of a declaration are declared, by what the declaration stands in. -/
def variableForm (t : Tree) (declaration : NodeId) : DeclarationForm :=
  match t.node? (t.parent (some declaration)) with
  | some parent =>
    if parent.kind = .catchClause then .catchVariable
    else if parent.kind = .variableDeclarationList && parent.hasFlag NodeFlag.blockScoped then
      .blockVariable
    else .hoistedVariable
  | none => .hoistedVariable

def importedNames (t : Tree) (clause : Child) : List Declaration :=
  match t.recordAt? clause with
  | some (.importClause name bindings) =>
    t.ownName .importBinding name ++
      match t.kind? bindings, t.recordAt? bindings with
      | some .namespaceImport, some (.namedBindings name _) => t.ownName .importBinding name
      | _, some (.namedBindings _ elements) =>
        elements.nodes.flatMap fun element =>
          match t.recordAt? element with
          | some (.specifier _ name) => t.ownName .importBinding name
          | _ => []
      | _, _ => []
  | _ => []

def declarations (t : Tree) (id : NodeId) : List Declaration :=
  match t.kind? (some id), t.recordAt? (some id) with
  | some .variableDeclaration, some (.variableDeclaration name _) =>
    let form := t.variableForm id
    (t.boundNames name).map fun i => ⟨i, form, form == .hoistedVariable⟩
  | some .parameter, some (.parameter _ name _) =>
    (t.boundNames name).map fun i => ⟨i, .parameter, false⟩
  | some .functionDeclaration, some (.function _ _ _ name _ _ _) => t.ownName .function name
  | some .classDeclaration, some (.classLike name _ _) => t.ownName .classLike name
  | some .importDeclaration, some (.importDeclaration clause _) => t.importedNames clause
  | _, _ => []

def innerDeclarations (t : Tree) (id : NodeId) : List Declaration :=
  match t.kind? (some id), t.recordAt? (some id) with
  | some .classExpression, some (.classLike name _ _) => t.ownName .classLike name
  | some .functionExpression, some (.function _ _ _ name _ _ _) => t.ownName .function name
  | _, _ => []

/-! ### Steps -/

def containerSteps (t : Tree) (kind : ScopeKind) (id : NodeId) : List BindStep :=
  .enter kind id :: ((t.children (some id)).map (BindStep.visit ∘ some) ++ [.leave])

/-- The steps of a function's body. The statements of a block lie in the scope of the function. -/
def bodySteps (t : Tree) (body : Child) : List BindStep :=
  match t.node? body with
  | none => []
  | some n =>
    match n.kind, t.record? n with
    | .block, some (.block statements _) => statements.nodes.map .visit
    | _, _ => [.visit body]

def functionSteps (t : Tree) (id : NodeId) (parameters : NodeList) (body : Child) :
    List BindStep :=
  .enter .function id :: (parameters.nodes.map .visit ++ t.bodySteps body ++ [.leave])

/-- The steps behind looking at a node. The name of a method is bound outside of it, and that of a
function expression with the scope that it opens. -/
def steps (t : Tree) (id : NodeId) : List BindStep :=
  match t.node? (some id) with
  | none => []
  | some n =>
    match n.kind, t.record? n with
    | .variableDeclaration, some (.variableDeclaration name value) => [.visit name, .visit value]
    | .parameter, some (.parameter _ name value) => [.visit name, .visit value]
    | .functionDeclaration, some (.function _ _ _ _ parameters body _) =>
      t.functionSteps id parameters body
    | .functionExpression, some (.function _ _ _ _ parameters body _) =>
      t.functionSteps id parameters body
    | .arrowFunction, some (.function _ _ _ name parameters body _)
    | .methodDeclaration, some (.function _ _ _ name parameters body _)
    | .getAccessor, some (.function _ _ _ name parameters body _)
    | .setAccessor, some (.function _ _ _ name parameters body _)
    | .constructorDeclaration, some (.function _ _ _ name parameters body _) =>
      .visit name :: t.functionSteps id parameters body
    | .classDeclaration, some (.classLike _ parent members)
    | .classExpression, some (.classLike _ parent members) =>
      .enter .classLike id :: .visit parent :: (members.nodes.map .visit ++ [.leave])
    | .staticBlock, _ => t.containerSteps .function id
    | .block, _ | .caseBlock, _ | .forStatement, _ | .forInStatement, _ | .forOfStatement, _ =>
      t.containerSteps .block id
    | .catchClause, _ => t.containerSteps .catchClause id
    | .variableDeclaration, _ | .parameter, _ | .functionDeclaration, _ | .functionExpression, _
    | .arrowFunction, _ | .methodDeclaration, _ | .getAccessor, _ | .setAccessor, _
    | .constructorDeclaration, _ | .classDeclaration, _ | .classExpression, _
    | .importDeclaration, _ | .token .identifier, _ => []
    | _, _ => (t.children (some id)).map (BindStep.visit ∘ some)

def sharedBody? (t : Tree) (id : NodeId) : Child :=
  match t.kind? (some id), t.recordAt? (some id) with
  | some .classExpression, _ => none
  | _, some (.function _ _ _ _ _ body _) =>
    if t.kind? body = some .block then body else none
  | _, _ => none

end Tree

end PathGuard
