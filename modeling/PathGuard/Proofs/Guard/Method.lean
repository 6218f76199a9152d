import PathGuard.Proofs.Guard.Program
import PathGuard.Proofs.Run.Parsed
/-!
# Coming back from every rule

All rules of the grammar besides that of a whole text, with what each of them leaves as it was.
-/

namespace PathGuard

namespace Parser

/-- The rules of the grammar, each with the nodes that are passed to it. The step of a repetition is a
part of the rule that repeats it, and the rule of a whole text is none of them. -/
inductive GrammarRule (sub : PhraseParser) : {α : Type} → Parser α → (given : List Child) → Prop where
  -- expressions and names
  | assignmentOrReport : GrammarRule sub (assignmentOrReport sub) []
  | expression : GrammarRule sub (expression sub) []
  | initializer : GrammarRule sub (initializer sub) []
  | takeIdentifier (k : TokenKind) : GrammarRule sub (takeIdentifier k) []
  | takeLiteral : GrammarRule sub takeLiteral []
  | takeToken : GrammarRule sub takeToken []
  | identifier : GrammarRule sub identifier []
  | identifierName : GrammarRule sub identifierName []
  | computedName : GrammarRule sub (computedName sub) []
  | propertyName : GrammarRule sub (propertyName sub) []
  -- patterns and parameters
  | restElement (start : Nat) : GrammarRule sub (restElement sub start) []
  | propertyElement (start : Nat) : GrammarRule sub (propertyElement sub start) []
  | objectElement : GrammarRule sub (objectElement sub) []
  | objectPattern : GrammarRule sub (objectPattern sub) []
  | hole : GrammarRule sub hole []
  | arrayPattern : GrammarRule sub (arrayPattern sub) []
  | binding : GrammarRule sub (binding sub) []
  | parameter : GrammarRule sub (parameter sub) []
  | parameterList : GrammarRule sub (parameterList sub) []
  -- blocks and functions
  | statementList (isEnd : TokenKind → Bool) : GrammarRule sub (statementList sub isEnd) []
  | blockFrom (k : NodeKind) (start : Nat) : GrammarRule sub (blockFrom sub k start) []
  | block : GrammarRule sub (block sub) []
  | signatureAndBody (isAsync isGenerator : Bool) :
      GrammarRule sub (signatureAndBody sub isAsync isGenerator) []
  | functionDeclaration (nameOptional : Bool) :
      GrammarRule sub (functionDeclaration sub nameOptional) []
  | functionExpression : GrammarRule sub (functionExpression sub) []
  | accessorMark : GrammarRule sub accessorMark []
  | methodMarks : GrammarRule sub methodMarks []
  | method (k : NodeKind) (start : Nat) (modifiers : Option NodeList) (marks : MethodMarks)
      (name : Child) : GrammarRule sub (method sub k start modifiers marks name)
        (Record.optionalNodes modifiers ++ [name])
  -- classes
  | staticBlock (start : Nat) : GrammarRule sub (staticBlock sub start) []
  | field (start : Nat) (modifiers : Option NodeList) (marks : MethodMarks) (name : Child) :
      GrammarRule sub (field sub start modifiers marks name) (Record.optionalNodes modifiers ++ [name])
  | namedMember (start : Nat) (modifiers : List Child) :
      GrammarRule sub (namedMember sub start modifiers) modifiers
  | classMember : GrammarRule sub (classMember sub) []
  | heritage : GrammarRule sub (heritage sub) []
  | classOf (k : NodeKind) (nameOptional : Bool) : GrammarRule sub (classOf sub k nameOptional) []
  -- primary expressions
  | template : GrammarRule sub (template sub) []
  | parenthesized : GrammarRule sub (parenthesized sub) []
  | spreadOrAssignment (k : NodeKind) : GrammarRule sub (spreadOrAssignment sub k) []
  | arrayLiteral : GrammarRule sub (arrayLiteral sub) []
  | shorthandProperty (start : Nat) (name : Child) :
      GrammarRule sub (shorthandProperty sub start name) [name]
  | namedObjectMember (start : Nat) (marks : MethodMarks) (shorthand : Bool) (name : Child) :
      GrammarRule sub (namedObjectMember sub start marks shorthand name) [name]
  | objectMember : GrammarRule sub (objectMember sub) []
  | objectLiteral : GrammarRule sub (objectLiteral sub) []
  | importExpression : GrammarRule sub importExpression []
  | regularExpression : GrammarRule sub regularExpression []
  | nameOrReport : GrammarRule sub nameOrReport []
  | primary : GrammarRule sub (primary sub) []
  -- members and calls
  | argumentList : GrammarRule sub (argumentList sub) []
  | propertyAccess (flags start : Nat) (object : Child) (questionDot : Bool) :
      GrammarRule sub (propertyAccess flags start object questionDot) [object]
  | elementAccess (flags start : Nat) (object : Child) (questionDot : Bool) :
      GrammarRule sub (elementAccess sub flags start object questionDot) [object]
  | call (flags start : Nat) (callee : Child) : GrammarRule sub (call sub flags start callee) [callee]
  | optionalLink (start : Nat) (object : Child) :
      GrammarRule sub (optionalLink sub start object) [object]
  | taggedTemplate (chained : Bool) (flags start : Nat) (tag : Child) :
      GrammarRule sub (taggedTemplate sub chained flags start tag) [tag]
  | links (start : Nat) (object : Child) (allowCalls : Bool) :
      GrammarRule sub (links sub start object allowCalls) [object]
  | callee : GrammarRule sub (callee sub) []
  | newExpression : GrammarRule sub (newExpression sub) []
  | leftHandSide : GrammarRule sub (leftHandSide sub) []
  -- operators and arrow functions
  | operatorBehind : GrammarRule sub (operatorBehind sub) []
  | unaryHere : GrammarRule sub (unaryHere sub) []
  | unary : GrammarRule sub (unary sub) []
  | binary (least : Nat) : GrammarRule sub (binary sub least) []
  | conditional : GrammarRule sub (conditional sub) []
  | arrowParameters (isAsync : Bool) : GrammarRule sub (arrowParameters sub isAsync) []
  | arrowBody (isAsync : Bool) : GrammarRule sub (arrowBody sub isAsync) []
  | arrowFunction (isAsync : Bool) : GrammarRule sub (arrowFunction sub isAsync) []
  | yieldExpression : GrammarRule sub (yieldExpression sub) []
  | assignmentOrCondition : GrammarRule sub (assignmentOrCondition sub) []
  | assignmentHere : GrammarRule sub (assignmentHere sub) []
  | assignment : GrammarRule sub (assignment sub) []
  -- statements
  | variableDeclaration : GrammarRule sub (variableDeclaration sub) []
  | variableDeclarationList : GrammarRule sub (variableDeclarationList sub) []
  | variableStatement : GrammarRule sub (variableStatement sub) []
  | emptyStatement : GrammarRule sub emptyStatement []
  | debuggerStatement : GrammarRule sub debuggerStatement []
  | expressionStatement : GrammarRule sub (expressionStatement sub) []
  | labeledStatement : GrammarRule sub (labeledStatement sub) []
  | jumpStatement (k : NodeKind) : GrammarRule sub (jumpStatement k) []
  | returnOrThrow (k : NodeKind) : GrammarRule sub (returnOrThrow sub k) []
  | condition : GrammarRule sub (condition sub) []
  | ifStatement : GrammarRule sub (ifStatement sub) []
  | doStatement : GrammarRule sub (doStatement sub) []
  | whileStatement : GrammarRule sub (whileStatement sub) []
  | forInitializer : GrammarRule sub (forInitializer sub) []
  | forMembers (k : NodeKind) (start : Nat) (isAwait : Bool) (variable_ value : Child) :
      GrammarRule sub (forMembers sub k start isAwait variable_ value) [variable_, value]
  | forPart (stop : Punctuator) : GrammarRule sub (forPart sub stop) []
  | forCondition (start : Nat) (initial : Child) :
      GrammarRule sub (forCondition sub start initial) [initial]
  | forStatement : GrammarRule sub (forStatement sub) []
  | clauseBody (k : NodeKind) (start : Nat) (value : Child) :
      GrammarRule sub (clauseBody sub k start value) [value]
  | switchStatement : GrammarRule sub (switchStatement sub) []
  | catchVariable : GrammarRule sub (catchVariable sub) []
  | catchClause : GrammarRule sub (catchClause sub) []
  | tryStatement : GrammarRule sub (tryStatement sub) []
  | labeledOrExpression : GrammarRule sub (labeledOrExpression sub) []
  | statementHere : GrammarRule sub (statementHere sub) []
  | statement : GrammarRule sub (statement sub) []
  -- imports and exports
  | exportName : GrammarRule sub exportName []
  | specifiers (list specifier : NodeKind) : GrammarRule sub (specifiers list specifier) []
  | moduleSpecifier : GrammarRule sub moduleSpecifier []
  | importAttributes : GrammarRule sub (importAttributes sub) []
  | namespaceImport : GrammarRule sub namespaceImport []
  | importBindings (name : Child) : GrammarRule sub (importBindings name) []
  | importClause : GrammarRule sub importClause []
  | importDeclaration : GrammarRule sub (importDeclaration sub) []
  | exportAssignment : GrammarRule sub (exportAssignment sub) []
  | defaultExport : GrammarRule sub (defaultExport sub) []
  | exportAll : GrammarRule sub (exportAll sub) []
  | exportNamed : GrammarRule sub (exportNamed sub) []
  | exportedDeclaration : GrammarRule sub (exportedDeclaration sub) []
  | exportDeclaration : GrammarRule sub (exportDeclaration sub) []

variable {α : Type} {own : NodeId → Prop} {sub : PhraseParser} {act : Parser α} {given : List Child}

theorem guards_grammarRule (hsub : GuardsPhrases own sub) (rule : GrammarRule sub act given)
    (mine : OwnedAll own given) : Guards own act fun _ => True := by
  -- what stands in front of a name, and the name
  have before {modifiers : Option NodeList} {name : Child}
      (mine : OwnedAll own (Record.optionalNodes modifiers ++ [name])) :
      OwnedAll own (Record.optionalNodes modifiers) ∧ Owned own name := by
    obtain ⟨marks, named⟩ := List.forall_mem_append.1 mine
    exact ⟨marks, named name (List.mem_singleton_self _)⟩
  have alone {child : Child} (mine : OwnedAll own [child]) : Owned own child :=
    mine child (List.mem_singleton_self _)
  cases rule with
  | assignmentOrReport => exact (guards_assignmentOrReport hsub).any
  | expression => exact (guards_expression hsub).any
  | initializer => exact (guards_initializer hsub).any
  | takeIdentifier k => exact (guards_takeIdentifier k).any
  | takeLiteral => exact guards_takeLiteral.any
  | takeToken => exact guards_takeToken.any
  | identifier => exact guards_identifier.any
  | identifierName => exact guards_identifierName.any
  | computedName => exact (guards_computedName hsub).any
  | propertyName => exact (guards_propertyName hsub).any
  | restElement start => exact (guards_restElement hsub).any
  | propertyElement start => exact (guards_propertyElement hsub).any
  | objectElement => exact (guards_objectElement hsub).any
  | objectPattern => exact (guards_objectPattern hsub).any
  | hole => exact guards_hole.any
  | arrayPattern => exact (guards_arrayPattern hsub).any
  | binding => exact (guards_binding hsub).any
  | parameter => exact (guards_parameter hsub).any
  | parameterList => exact (guards_parameterList hsub).any
  | statementList isEnd => exact (guards_statementList hsub isEnd).any
  | blockFrom k start => exact (guards_blockFrom hsub).any
  | block => exact (guards_block hsub).any
  | signatureAndBody isAsync isGenerator => exact (guards_signatureAndBody hsub _ _).any
  | functionDeclaration nameOptional => exact (guards_functionDeclaration hsub nameOptional).any
  | functionExpression => exact (guards_functionExpression hsub).any
  | accessorMark => exact guards_accessorMark
  | methodMarks => exact guards_methodMarks
  | method k start modifiers marks name =>
    exact (guards_method hsub marks (before mine).1 (before mine).2).any
  | staticBlock start => exact (guards_staticBlock hsub).any
  | field start modifiers marks name =>
    exact (guards_field hsub marks (before mine).1 (before mine).2).any
  | namedMember start modifiers => exact (guards_namedMember hsub mine).any
  | classMember => exact (guards_classMember hsub).any
  | heritage => exact (guards_heritage hsub).any
  | classOf k nameOptional => exact (guards_classOf hsub nameOptional).any
  | template => exact (guards_template hsub).any
  | parenthesized => exact (guards_parenthesized hsub).any
  | spreadOrAssignment k => exact (guards_spreadOrAssignment hsub k).any
  | arrayLiteral => exact (guards_arrayLiteral hsub).any
  | shorthandProperty start name => exact (guards_shorthandProperty hsub (alone mine)).any
  | namedObjectMember start marks shorthand name =>
    exact (guards_namedObjectMember hsub marks shorthand (alone mine)).any
  | objectMember => exact (guards_objectMember hsub).any
  | objectLiteral => exact (guards_objectLiteral hsub).any
  | importExpression => exact guards_importExpression.any
  | regularExpression => exact guards_regularExpression.any
  | nameOrReport => exact guards_nameOrReport.any
  | primary => exact (guards_primary hsub).any
  | argumentList => exact (guards_argumentList hsub).any
  | propertyAccess flags start object questionDot => exact (guards_propertyAccess _ (alone mine)).any
  | elementAccess flags start object questionDot =>
    exact (guards_elementAccess hsub questionDot (alone mine)).any
  | call flags start callee => exact (guards_call hsub (alone mine)).any
  | optionalLink start object => exact (guards_optionalLink hsub (alone mine)).any
  | taggedTemplate chained flags start tag =>
    exact (guards_taggedTemplate hsub chained (alone mine)).any
  | links start object allowCalls => exact (guards_links hsub allowCalls (alone mine)).any
  | callee => exact (guards_callee hsub).any
  | newExpression => exact (guards_newExpression hsub).any
  | leftHandSide => exact (guards_leftHandSide hsub).any
  | operatorBehind => exact (guards_operatorBehind hsub).any
  | unaryHere => exact (guards_unaryHere hsub).any
  | unary => exact (guards_unary hsub).any
  | binary least => exact (guards_binary hsub least).any
  | conditional => exact (guards_conditional hsub).any
  | arrowParameters isAsync => exact (guards_arrowParameters hsub isAsync).any
  | arrowBody isAsync => exact (guards_arrowBody hsub isAsync).any
  | arrowFunction isAsync => exact (guards_arrowFunction hsub isAsync).any
  | yieldExpression => exact (guards_yieldExpression hsub).any
  | assignmentOrCondition => exact (guards_assignmentOrCondition hsub).any
  | assignmentHere => exact (guards_assignmentHere hsub).any
  | assignment => exact (guards_assignment hsub).any
  | variableDeclaration => exact (guards_variableDeclaration hsub).any
  | variableDeclarationList => exact (guards_variableDeclarationList hsub).any
  | variableStatement => exact (guards_variableStatement hsub).any
  | emptyStatement => exact guards_emptyStatement.any
  | debuggerStatement => exact guards_debuggerStatement.any
  | expressionStatement => exact (guards_expressionStatement hsub).any
  | labeledStatement => exact (guards_labeledStatement hsub).any
  | jumpStatement k => exact guards_jumpStatement.any
  | returnOrThrow k => exact (guards_returnOrThrow hsub).any
  | condition => exact (guards_condition hsub).any
  | ifStatement => exact (guards_ifStatement hsub).any
  | doStatement => exact (guards_doStatement hsub).any
  | whileStatement => exact (guards_whileStatement hsub).any
  | forInitializer => exact (guards_forInitializer hsub).any
  | forMembers k start isAwait variable_ value =>
    obtain ⟨bound, rest⟩ := List.forall_mem_cons.1 mine
    exact (guards_forMembers hsub isAwait bound (alone rest)).any
  | forPart stop => exact (guards_forPart hsub stop).any
  | forCondition start initial => exact (guards_forCondition hsub (alone mine)).any
  | forStatement => exact (guards_forStatement hsub).any
  | clauseBody k start value => exact (guards_clauseBody hsub (alone mine)).any
  | switchStatement => exact (guards_switchStatement hsub).any
  | catchVariable => exact (guards_catchVariable hsub).any
  | catchClause => exact (guards_catchClause hsub).any
  | tryStatement => exact (guards_tryStatement hsub).any
  | labeledOrExpression => exact (guards_labeledOrExpression hsub).any
  | statementHere => exact (guards_statementHere hsub).any
  | statement => exact (guards_statement hsub).any
  | exportName => exact guards_exportName.any
  | specifiers list specifier => exact guards_specifiers.any
  | moduleSpecifier => exact guards_moduleSpecifier.any
  | importAttributes => exact guards_importAttributes hsub
  | namespaceImport => exact guards_namespaceImport.any
  | importBindings name => exact (guards_importBindings name).any
  | importClause => exact guards_importClause.any
  | importDeclaration => exact (guards_importDeclaration hsub).any
  | exportAssignment => exact (guards_exportAssignment hsub).any
  | defaultExport => exact (guards_defaultExport hsub).any
  | exportAll => exact (guards_exportAll hsub).any
  | exportNamed => exact (guards_exportNamed hsub).any
  | exportedDeclaration => exact (guards_exportedDeclaration hsub).any
  | exportDeclaration => exact (guards_exportDeclaration hsub).any

end Parser

open PathGuard.Parser

/-- From whatever state a rule of the grammar is applied, no deeper than it may be: behind it the depth
and the context are those from before, in between it was no deeper than it may be, the problems are
those from before and newer ones, and the nodes are those from before and newer ones. Of the nodes from
before, those that were passed to the rule may belong to another construct. -/
theorem guarded_of_grammarRule {α : Type} {act : Parser α} {given : List Child} {fuel : Nat}
    (rule : GrammarRule (phrase fuel) act given) {s : ParserState} (room : s.depth ≤ maxDepth) :
    s.Guarded (fun i => s.tree.size ≤ i ∨ some i ∈ given) (act s).2 := by
  have mine : OwnedAll (fun i => s.tree.size ≤ i ∨ some i ∈ given) given := by
    rintro _ member i rfl
    exact .inr member
  exact (guards_grammarRule (guards_phrase _ fuel) rule mine s room fun i new => .inl new).1

/-- Behind `a`, two levels from the deepest one, the argument of `(new b)` goes down to that level and
finds no room below it; the call that is added nevertheless takes `a`. -/
theorem guarded_of_grammarRule_links :
    let s : ParserState := { (identifier (firstState "a(new b)".toList)).2 with depth := 498 }
    let s' := (links (phrase 4) 0 (some 0) true s).2
    s.depth ≤ maxDepth ∧ s.Guarded (fun i => s.tree.size ≤ i ∨ some i ∈ [some 0]) s' ∧
      s'.deepest = maxDepth ∧
      s'.problems.map Problem.cause = [.argumentExpected, .nestingTooDeep] ∧
      (s.tree.node? (some 0)).map Node.parent = some none ∧
      (s'.tree.node? (some 0)).map Node.parent = some (some 1) :=
  have room : 498 ≤ maxDepth := by decide
  ⟨room, guarded_of_grammarRule (.links 0 (some 0) true) room, by decide +kernel, by decide +kernel,
    by decide +kernel, by decide +kernel⟩

end PathGuard
