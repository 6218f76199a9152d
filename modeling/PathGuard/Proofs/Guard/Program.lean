import PathGuard.Grammar.Program
import PathGuard.Proofs.Guard.Statement
/-!
# Coming back from imports, exports and every phrase
-/

namespace PathGuard.Parser

variable {own : NodeId → Prop} {sub : PhraseParser} {k : NodeKind}

/-! ### What imports and exports have -/

theorem guards_exportName : Guards own exportName (Owned own) := by
  refine .look looks_kind fun k => either guards_takeLiteral (either guards_identifierName ?_)
  exact guards_reportMissing _

theorem guards_specifierStep {specifiers : List Child} (mine : OwnedAll own specifiers) :
    Guards own (specifierStep k specifiers) fun answer => OwnedAll own answer.value := by
  refine .look looks_kind fun t => either (.pure mine) (.look looks_tokenStart fun start => ?_)
  refine guards_exportName.bind fun first named => either (.pure mine) ?_
  refine (Guards.moving.accept _).step fun renamed => ?_
  extract_lets join
  have joined (property name : Child) (parts : OwnedAll own [property, name]) :
      Guards own (join (property, name)) fun answer => OwnedAll own answer.value :=
    (guards_add _ _ parts).bind fun specifier one_ => guards_orDone (.cons one_ mine)
  refine either (guards_exportName.bind fun name other => ?_) (atOnce (joined none first ?_))
  · exact atOnce (joined first name (.cons named (.one other)))
  · exact .cons owned_none (.one named)

theorem guards_specifiers {list specifier : NodeKind} :
    Guards own (specifiers list specifier) (Owned own) := by
  refine .look looks_tokenStart fun start => (Guards.moving.expect _).step fun _ => ?_
  refine .bind (.repeating (fun _ => guards_specifierStep) .nil) fun elements mine => ?_
  exact (Guards.moving.expect _).step fun _ => guards_add _ _ (.cons owned_none mine.reverse)

theorem guards_moduleSpecifier : Guards own moduleSpecifier (Owned own) :=
  .look (looks_isAt _) fun _ => either guards_takeLiteral (guards_reportMissing _)

theorem guards_importAttributes (hsub : GuardsPhrases own sub) :
    Guards own (importAttributes sub) fun _ => True := by
  refine .look (looks_isAt _) fun with_ => either ?_ (.pure trivial)
  refine .look looks_afterLineBreak fun broken => either (.pure trivial) ?_
  refine Guards.moving.advance.step fun _ => ?_
  exact (guards_objectLiteral hsub).bind fun attributes _ => .pure trivial

/-! ### Imports -/

theorem guards_namespaceImport : Guards own namespaceImport (Owned own) := by
  refine .look looks_tokenStart fun start => Guards.moving.advance.step fun _ => ?_
  refine (Guards.moving.expect _).step fun _ => guards_identifier.bind fun name named => ?_
  exact guards_add _ _ (.one named)

theorem guards_importBindings (name : Child) : Guards own (importBindings name) (Owned own) := by
  refine .look looks_kind fun k => ?_
  split
  · exact guards_namespaceImport
  · exact guards_specifiers
  · exact mergedWhen <| .step (either (Guards.moving.reportHere _) (Guards.closed.pure _)) fun _ =>
      .pure owned_none

theorem guards_importClause : Guards own importClause (Owned own) := by
  refine .look looks_tokenStart fun start => .look looks_atIdentifier fun found => ?_
  refine merged <| .bind (either guards_identifier (.pure owned_none)) fun name named => ?_
  beta_reduce
  refine merged <| .step (either (Guards.closed.pure _) (Guards.moving.accept _)) fun more => ?_
  beta_reduce
  exact merged <| .bind (either (guards_importBindings name) (.pure owned_none)) fun bindings bound =>
    guards_add _ _ (.cons named (.one bound))

theorem guards_importDeclaration (hsub : GuardsPhrases own sub) :
    Guards own (importDeclaration sub) (Owned own) := by
  refine .look looks_tokenStart fun start => Guards.moving.advance.step fun _ => ?_
  refine .look (looks_isAt _) fun bare => ?_
  extract_lets join
  have joined (clause : Child) (mine : Owned own clause) : Guards own (join clause) (Owned own) := by
    refine guards_moduleSpecifier.bind fun specifier from_ => ?_
    refine (guards_importAttributes hsub).step fun _ => Guards.moving.endStatement.step fun _ => ?_
    exact guards_add _ _ (.cons mine (.one from_))
  refine either (joined none owned_none) (guards_importClause.bind fun clause mine => ?_)
  exact (Guards.moving.expect _).step fun _ => atOnce (joined clause mine)

/-! ### Exports -/

theorem guards_exportAssignment (hsub : GuardsPhrases own sub) :
    Guards own (exportAssignment sub) (Owned own) := by
  refine .look looks_tokenStart fun start => (guards_assignmentOrReport hsub).bind fun value given => ?_
  exact Guards.moving.endStatement.step fun _ => guards_add _ _ (.one given)

theorem guards_defaultExport (hsub : GuardsPhrases own sub) :
    Guards own (defaultExport sub) (Owned own) := by
  refine .look looks_kind fun k => ?_
  split
  · exact guards_functionDeclaration hsub true
  · exact .look looks_asyncFunctionAhead fun found =>
      either (guards_functionDeclaration hsub true) (guards_exportAssignment hsub)
  · exact guards_classOf hsub true
  · exact guards_exportAssignment hsub

theorem guards_exportAll (hsub : GuardsPhrases own sub) :
    Guards own (exportAll sub) fun parts => OwnedAll own [parts.1, parts.2] := by
  refine .look looks_tokenStart fun start => Guards.moving.advance.step fun _ => ?_
  extract_lets join
  have joined (clause : Child) (mine : Owned own clause) :
      Guards own (join clause) fun parts => OwnedAll own [parts.1, parts.2] := by
    refine (Guards.moving.expect _).step fun _ =>
      guards_moduleSpecifier.bind fun specifier from_ => ?_
    refine (guards_importAttributes hsub).step fun _ => Guards.moving.endStatement.step fun _ => ?_
    exact .pure (.cons mine (.one from_))
  refine (Guards.moving.accept _).step fun as_ => either ?_ ?_
  · refine guards_exportName.bind fun name named => ?_
    exact (guards_add _ _ (.one named)).bind joined
  · exact joined none owned_none

theorem guards_exportNamed (hsub : GuardsPhrases own sub) :
    Guards own (exportNamed sub) fun parts => OwnedAll own [parts.1, parts.2] := by
  refine guards_specifiers.bind fun clause mine => (Guards.moving.accept _).step fun from_ => ?_
  extract_lets join
  have joined (specifier : Child) (given : Owned own specifier) :
      Guards own (join specifier) fun parts => OwnedAll own [parts.1, parts.2] :=
    Guards.moving.endStatement.step fun _ => .pure (.cons mine (.one given))
  refine either (guards_moduleSpecifier.bind fun specifier given => ?_) (joined none owned_none)
  exact (guards_importAttributes hsub).step fun _ => atOnce (joined specifier given)

theorem guards_exportedDeclaration (hsub : GuardsPhrases own sub) :
    Guards own (exportedDeclaration sub) (Owned own) := by
  refine .look looks_kind fun k => ?_
  split
  all_goals first
    | exact hsub .statement
    | exact guards_reportMissing _

theorem guards_exportDeclaration (hsub : GuardsPhrases own sub) :
    Guards own (exportDeclaration sub) (Owned own) := by
  refine .look looks_tokenStart fun start => Guards.moving.advance.step fun _ => ?_
  refine (Guards.moving.accept _).step fun isDefault => ?_
  extract_lets join
  have joined (parts : Child × Child) (mine : OwnedAll own [parts.1, parts.2]) :
      Guards own (join parts) (Owned own) := guards_add _ _ mine
  have alone (clause : Child) (mine : Owned own clause) :
      Guards own (pure (clause, none) >>= join) (Owned own) :=
    joined (clause, none) (.cons mine (.one owned_none))
  refine either ((guards_defaultExport hsub).bind alone) (.look looks_kind fun k => ?_)
  split
  · exact (guards_exportAll hsub).bind joined
  · exact (guards_exportNamed hsub).bind joined
  · exact (guards_exportedDeclaration hsub).bind alone

/-! ### Every phrase -/

theorem guards_labeledOrExpression (hsub : GuardsPhrases own sub) :
    Guards own (labeledOrExpression sub) (Owned own) := by
  refine .look looks_atIdentifier fun named => ?_
  extract_lets join
  have joined (labeled : Bool) : Guards own (join labeled) (Owned own) := by
    unfold join
    exact either (guards_labeledStatement hsub) (guards_expressionStatement hsub)
  exact either (.look looks_peek fun next => atOnce (joined _)) (joined false)

theorem guards_statementHere (hsub : GuardsPhrases own sub) :
    Guards own (statementHere sub) (Owned own) := by
  refine .look looks_kind fun k => ?_
  split
  · exact guards_block hsub
  · exact guards_emptyStatement
  · exact guards_variableStatement hsub
  · exact guards_variableStatement hsub
  · exact .look looks_letDeclarationAhead fun found =>
      either (guards_variableStatement hsub) (guards_labeledOrExpression hsub)
  · exact guards_functionDeclaration hsub false
  · exact .look looks_asyncFunctionAhead fun found =>
      either (guards_functionDeclaration hsub false) (guards_labeledOrExpression hsub)
  · exact guards_classOf hsub false
  · exact guards_ifStatement hsub
  · exact guards_doStatement hsub
  · exact guards_whileStatement hsub
  · exact guards_forStatement hsub
  · exact guards_jumpStatement
  · exact guards_jumpStatement
  · exact guards_returnOrThrow hsub
  · exact guards_returnOrThrow hsub
  · exact guards_tryStatement hsub
  · exact guards_switchStatement hsub
  · exact guards_debuggerStatement
  · exact .look looks_importExpressionAhead fun found =>
      either (guards_expressionStatement hsub) (guards_importDeclaration hsub)
  · exact guards_exportDeclaration hsub
  · exact guards_labeledOrExpression hsub

theorem guards_statement (hsub : GuardsPhrases own sub) :
    Guards own (statement sub) (Owned own) := .nested (guards_statementHere hsub)

theorem guards_rule (hsub : GuardsPhrases own sub) : GuardsPhrases own (rule sub) := by
  intro p
  cases p with
  | statement => exact guards_statement hsub
  | assignment => exact guards_assignment hsub
  | unary => exact guards_unary hsub
  | binary least => exact guards_binary hsub least
  | leftHandSide => exact guards_leftHandSide hsub
  | newExpression => exact guards_newExpression hsub
  | binding => exact guards_binding hsub

/-- With any fuel a parser comes back from every phrase: without fuel it does not go anywhere. -/
theorem guards_phrase (own : NodeId → Prop) (fuel : Nat) : GuardsPhrases own (phrase fuel) := by
  induction fuel with
  | zero => exact fun p => .pure owned_none
  | succ fuel ih => exact guards_rule ih

end PathGuard.Parser
