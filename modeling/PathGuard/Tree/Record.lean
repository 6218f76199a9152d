import PathGuard.Tree.Kind
/-!
# Records of nodes

What a node holds besides its kind and span, by the shape of its construct: its parts, as numbers
of other nodes, and the marks and texts that the parts do not show.
-/

namespace PathGuard

abbrev NodeId := Nat

/-- A part of a construct, which may be missing. -/
abbrev Child := Option NodeId

structure NodeList where
  nodes : List Child
  start : Nat
  stop : Nat
  trailingComma : Bool
  deriving DecidableEq, Repr

namespace NodeList

def ofNodes (nodes : List Child) : NodeList := ⟨nodes, 0, 0, false⟩

instance : Inhabited NodeList := ⟨ofNodes []⟩

end NodeList

inductive Record where
  | identifier (text : String)
  | literal (text : String) (rawText : Option String)
  | computedProperty (expression : Child)
  | binary (left : Child) (operator : NodeKind) (right : Child)
  | unary (operator : NodeKind) (operand : Child)
  | call (callee : Child) (arguments : Option NodeList)
  | access (expression key : Child) (questionDot : Bool)
  | conditional (condition whenTrue whenFalse : Child)
  | elements (elements : NodeList) (multiLine : Bool)
  | parenthesized (expression : Child)
  | template (head : Child) (spans : NodeList)
  | templateSpan (expression literal : Child)
  | taggedTemplate (tag template : Child)
  | metaProperty (keyword : NodeKind) (name : Child)
  | spread (expression : Child)
  | propertyAssignment (name initializer : Child)
  | shorthandProperty (name : Child) (hasEquals : Bool) (initializer : Child)
  | function (modifiers : Option NodeList) (isAsync isGenerator : Bool) (name : Child)
      (parameters : NodeList) (body : Child) (isArrow : Bool)
  | parameter (rest : Bool) (name initializer : Child)
  | classLike (name heritage : Child) (members : NodeList)
  | propertyDeclaration (modifiers : Option NodeList) (name initializer : Child)
  | block (statements : NodeList) (multiLine : Bool)
  | variableList (declarations : NodeList)
  | variableDeclaration (name initializer : Child)
  | bindingPattern (elements : NodeList)
  | bindingElement (rest : Bool) (property name initializer : Child)
  | expressionStatement (expression : Child)
  | ifStatement (condition thenStatement elseStatement : Child)
  | loop (initializer condition incrementor statement : Child)
  | forInOf (isAwait : Bool) (initializer expression statement : Child)
  | returnOrThrow (expression : Child)
  | jump (label : Child)
  | labeled (label statement : Child)
  | switch (expression caseBlock : Child)
  | caseClause (expression : Child) (statements : NodeList)
  | tryStatement (tryBlock catchClause finallyBlock : Child)
  | catchClause (declaration block : Child)
  | importDeclaration (clause specifier : Child)
  | importClause (name bindings : Child)
  | namedBindings (name : Child) (elements : NodeList)
  | specifier (property name : Child)
  | exportDeclaration (isDefault : Bool) (clause specifier : Child)
  | exportAssignment (expression : Child)
  | sourceFile (statements : NodeList) (endOfFile : Child) (fileName : String)
  deriving DecidableEq, Repr

/-- The shape of a record. Records of one shape are kept together. -/
inductive Shape where
  | identifier | literal | computedProperty | binary | unary | call | access | conditional
  | elements | parenthesized | template | templateSpan | taggedTemplate | metaProperty | spread
  | propertyAssignment | shorthandProperty | function | parameter | classLike
  | propertyDeclaration | block | variableList | variableDeclaration | bindingPattern
  | bindingElement | expressionStatement | ifStatement | loop | forInOf | returnOrThrow | jump
  | labeled | switch | caseClause | tryStatement | catchClause | importDeclaration
  | importClause | namedBindings | specifier | exportDeclaration | exportAssignment | sourceFile
  deriving DecidableEq, Repr, Inhabited

namespace Shape

def index (s : Shape) : Nat := s.ctorIdx

def count : Nat := sourceFile.index + 1

end Shape

namespace Record

def shape : Record → Shape
  | identifier .. => .identifier
  | literal .. => .literal
  | computedProperty .. => .computedProperty
  | binary .. => .binary
  | unary .. => .unary
  | call .. => .call
  | access .. => .access
  | conditional .. => .conditional
  | elements .. => .elements
  | parenthesized .. => .parenthesized
  | template .. => .template
  | templateSpan .. => .templateSpan
  | taggedTemplate .. => .taggedTemplate
  | metaProperty .. => .metaProperty
  | spread .. => .spread
  | propertyAssignment .. => .propertyAssignment
  | shorthandProperty .. => .shorthandProperty
  | function .. => .function
  | parameter .. => .parameter
  | classLike .. => .classLike
  | propertyDeclaration .. => .propertyDeclaration
  | block .. => .block
  | variableList .. => .variableList
  | variableDeclaration .. => .variableDeclaration
  | bindingPattern .. => .bindingPattern
  | bindingElement .. => .bindingElement
  | expressionStatement .. => .expressionStatement
  | ifStatement .. => .ifStatement
  | loop .. => .loop
  | forInOf .. => .forInOf
  | returnOrThrow .. => .returnOrThrow
  | jump .. => .jump
  | labeled .. => .labeled
  | switch .. => .switch
  | caseClause .. => .caseClause
  | tryStatement .. => .tryStatement
  | catchClause .. => .catchClause
  | importDeclaration .. => .importDeclaration
  | importClause .. => .importClause
  | namedBindings .. => .namedBindings
  | specifier .. => .specifier
  | exportDeclaration .. => .exportDeclaration
  | exportAssignment .. => .exportAssignment
  | sourceFile .. => .sourceFile

def optionalNodes (list : Option NodeList) : List Child := (list.map NodeList.nodes).getD []

/-- The parts of a record, in the order of the source; only in a loop that ends with its condition
does the statement come before the condition. -/
def parts : Record → List Child
  | identifier _ => []
  | literal _ _ => []
  | computedProperty e => [e]
  | binary l _ r => [l, r]
  | unary _ e => [e]
  | call f args => f :: optionalNodes args
  | access e k _ => [e, k]
  | conditional c t f => [c, t, f]
  | elements l _ => l.nodes
  | parenthesized e => [e]
  | template h l => h :: l.nodes
  | templateSpan e l => [e, l]
  | taggedTemplate t l => [t, l]
  | metaProperty _ n => [n]
  | spread e => [e]
  | propertyAssignment n e => [n, e]
  | shorthandProperty n _ e => [n, e]
  | function m _ _ n p b _ => optionalNodes m ++ n :: (p.nodes ++ [b])
  | parameter _ n e => [n, e]
  | classLike n h l => n :: h :: l.nodes
  | propertyDeclaration m n e => optionalNodes m ++ [n, e]
  | block l _ => l.nodes
  | variableList l => l.nodes
  | variableDeclaration n e => [n, e]
  | bindingPattern l => l.nodes
  | bindingElement _ p n e => [p, n, e]
  | expressionStatement e => [e]
  | ifStatement c t e => [c, t, e]
  | loop i c u s => [i, c, u, s]
  | forInOf _ i e s => [i, e, s]
  | returnOrThrow e => [e]
  | jump l => [l]
  | labeled l s => [l, s]
  | switch e b => [e, b]
  | caseClause e l => e :: l.nodes
  | tryStatement t c f => [t, c, f]
  | catchClause d b => [d, b]
  | importDeclaration c s => [c, s]
  | importClause n b => [n, b]
  | namedBindings n l => n :: l.nodes
  | specifier p n => [p, n]
  | exportDeclaration _ c s => [c, s]
  | exportAssignment e => [e]
  | sourceFile l e _ => l.nodes ++ [e]

end Record

namespace NodeKind

def shape? : NodeKind → Option Shape
  | .token .identifier | .token .privateIdentifier => some .identifier
  | .token (.literal _) => some .literal
  | .computedPropertyName => some .computedProperty
  | .binaryExpression => some .binary
  | .prefixUnary | .postfixUnary | .awaitExpression | .yieldExpression => some .unary
  | .callExpression | .newExpression => some .call
  | .propertyAccess | .elementAccess => some .access
  | .conditionalExpression => some .conditional
  | .arrayLiteral | .objectLiteral => some .elements
  | .parenthesized => some .parenthesized
  | .templateExpression => some .template
  | .templateSpan => some .templateSpan
  | .taggedTemplate => some .taggedTemplate
  | .metaProperty => some .metaProperty
  | .spreadElement | .spreadAssignment => some .spread
  | .propertyAssignment => some .propertyAssignment
  | .shorthandProperty => some .shorthandProperty
  | .functionDeclaration | .functionExpression | .arrowFunction | .methodDeclaration
  | .getAccessor | .setAccessor | .constructorDeclaration => some .function
  | .parameter => some .parameter
  | .classDeclaration | .classExpression => some .classLike
  | .propertyDeclaration => some .propertyDeclaration
  | .block | .caseBlock | .staticBlock => some .block
  | .variableStatement | .variableDeclarationList => some .variableList
  | .variableDeclaration => some .variableDeclaration
  | .objectBindingPattern | .arrayBindingPattern => some .bindingPattern
  | .bindingElement => some .bindingElement
  | .expressionStatement => some .expressionStatement
  | .ifStatement => some .ifStatement
  | .forStatement | .whileStatement | .doStatement => some .loop
  | .forInStatement | .forOfStatement => some .forInOf
  | .returnStatement | .throwStatement => some .returnOrThrow
  | .breakStatement | .continueStatement => some .jump
  | .labeledStatement => some .labeled
  | .switchStatement => some .switch
  | .caseClause | .defaultClause => some .caseClause
  | .tryStatement => some .tryStatement
  | .catchClause => some .catchClause
  | .importDeclaration => some .importDeclaration
  | .importClause => some .importClause
  | .namespaceImport | .namedImports | .namedExports | .namespaceExport => some .namedBindings
  | .importSpecifier | .exportSpecifier => some .specifier
  | .exportDeclaration => some .exportDeclaration
  | .exportAssignment => some .exportAssignment
  | .sourceFile => some .sourceFile
  | _ => none

end NodeKind

end PathGuard
