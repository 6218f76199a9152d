import PathGuard.Proofs.Guard.Primary
import PathGuard.Proofs.Span.Statement
/-!
# Coming back from operators, arrow functions and statements
-/

namespace PathGuard.Parser

variable {own : NodeId → Prop} {sub : PhraseParser} {start : Nat} {k : NodeKind}

/-! ### Operators -/

theorem guards_operatorBehind (hsub : GuardsPhrases own sub) :
    Guards own (operatorBehind sub) (Owned own) := by
  refine .look looks_tokenStart fun start => (guards_leftHandSide hsub).bind fun operand mine => ?_
  refine .look looks_kind fun k => .look looks_afterLineBreak fun broken => either ?_ (.pure mine)
  exact Guards.moving.advance.step fun _ => guards_add _ _ (.one mine)

theorem guards_unaryHere (hsub : GuardsPhrases own sub) :
    Guards own (unaryHere sub) (Owned own) := by
  refine .look looks_tokenStart fun start => .look looks_kind fun k => ?_
  refine .look looks_context fun c => ?_
  split
  · refine Guards.moving.advance.step fun _ => (hsub .unary).bind fun operand mine => ?_
    exact mergedWhen <| .step (either (Guards.moving.reportHere _) (Guards.closed.pure _)) fun _ =>
      guards_add _ _ (.one mine)
  · exact guards_operatorBehind hsub

theorem guards_unary (hsub : GuardsPhrases own sub) : Guards own (unary sub) (Owned own) :=
  .nested (guards_unaryHere hsub)

theorem guards_operatorStep (hsub : GuardsPhrases own sub) (least : Nat) {left : Child}
    (mine : Owned own left) :
    Guards own (operatorStep sub start least left) fun answer => Owned own answer.value := by
  refine .look looks_kind fun operator => .look looks_context fun c => either (.pure mine) ?_
  refine Guards.moving.advance.step fun _ => (hsub (.binary _)).bind fun right other => ?_
  refine mergedWhen <|
    .step (either (Guards.moving.reportHere _) (Guards.closed.pure _)) fun _ => ?_
  exact (guards_add _ _ (.cons mine (.one other))).bind fun node joined => .pure joined

theorem guards_binary (hsub : GuardsPhrases own sub) (least : Nat) :
    Guards own (binary sub least) (Owned own) := by
  refine .look looks_tokenStart fun start => (guards_unary hsub).bind fun left mine => ?_
  exact either (.pure owned_none) (.repeating (fun _ => guards_operatorStep hsub least) mine)

theorem guards_conditional (hsub : GuardsPhrases own sub) :
    Guards own (conditional sub) (Owned own) := by
  refine .look looks_tokenStart fun start => (guards_binary hsub 0).bind fun condition mine => ?_
  refine either (.pure owned_none) ?_
  refine (Guards.moving.accept _).step fun question => either ?_ (.pure mine)
  refine .bind (.within _ (guards_assignmentOrReport hsub)) fun whenTrue first => ?_
  refine (Guards.moving.expect _).step fun _ => ?_
  refine (guards_assignmentOrReport hsub).bind fun whenFalse other => ?_
  exact guards_add _ _ (.cons mine (.cons first (.one other)))

/-! ### Arrow functions -/

theorem guards_arrowParameters (hsub : GuardsPhrases own sub) (isAsync : Bool) :
    Guards own (arrowParameters sub isAsync) fun row => OwnedAll own row.nodes := by
  refine .look (looks_isAt _) fun group => either (.within _ (guards_parameterList hsub)) ?_
  refine .look looks_tokenStart fun start => guards_identifier.bind fun name named => ?_
  exact (guards_add _ _ (.cons named (.one owned_none))).bind fun node one_ => .pure (.one one_)

theorem guards_arrowBody (hsub : GuardsPhrases own sub) (isAsync : Bool) :
    Guards own (arrowBody sub isAsync) (Owned own) :=
  .look (looks_isAt _) fun _ =>
    either (.within _ (guards_block hsub)) (.within _ (guards_assignmentOrReport hsub))

theorem guards_arrowFunction (hsub : GuardsPhrases own sub) (isAsync : Bool) :
    Guards own (arrowFunction sub isAsync) (Owned own) := by
  refine .look looks_tokenStart fun start => mergedWhen ?_
  refine .step (either Guards.moving.advance (Guards.closed.pure _)) fun _ => ?_
  refine (guards_arrowParameters hsub isAsync).bind fun parameters mine => ?_
  refine (Guards.moving.expect _).step fun _ =>
    (guards_arrowBody hsub isAsync).bind fun body inner => ?_
  exact guards_add _ _ (.cons owned_none (mine.append (.one inner)))

/-! ### Assignments -/

theorem guards_yieldExpression (hsub : GuardsPhrases own sub) :
    Guards own (yieldExpression sub) (Owned own) := by
  refine .look looks_tokenStart fun start => Guards.moving.advance.step fun _ => ?_
  refine .look looks_afterLineBreak fun broken => ?_
  refine merged <|
    .step (either (Guards.closed.pure _) (Guards.moving.accept _)) fun delegates => ?_
  beta_reduce
  refine merged <| .look (either (Looks.closed.pure _) looks_atYieldEnd) fun alone => ?_
  beta_reduce
  refine merged <| .bind (Q := Owned own) ?_ fun operand mine => guards_add _ _ (.one mine)
  exact either (.pure owned_none) (guards_assignmentOrReport hsub)

theorem guards_assignmentOrCondition (hsub : GuardsPhrases own sub) :
    Guards own (assignmentOrCondition sub) (Owned own) := by
  refine .look looks_tokenStart fun start => (guards_conditional hsub).bind fun target mine => ?_
  refine .look looks_kind fun operator =>
    either (Guards.moving.advance.step fun _ => ?_) (.pure mine)
  refine (guards_assignmentOrReport hsub).bind fun value given => ?_
  exact guards_add _ _ (.cons mine (.one given))

theorem guards_assignmentHere (hsub : GuardsPhrases own sub) :
    Guards own (assignmentHere sub) (Owned own) := by
  refine .look (looks_isAt _) fun word => .look looks_context fun c => ?_
  refine either (guards_yieldExpression hsub) (.look looks_arrowAhead fun found => ?_)
  cases found with
  | some isAsync => exact guards_arrowFunction hsub isAsync
  | none => exact guards_assignmentOrCondition hsub

theorem guards_assignment (hsub : GuardsPhrases own sub) :
    Guards own (assignment sub) (Owned own) := .nested (guards_assignmentHere hsub)

/-! ### Variables -/

theorem guards_variableDeclaration (hsub : GuardsPhrases own sub) :
    Guards own (variableDeclaration sub) (Owned own) := by
  refine .look looks_tokenStart fun start => (guards_binding hsub).bind fun name bound => ?_
  refine either (.pure owned_none) ((guards_initializer hsub).bind fun value given => ?_)
  exact guards_add _ _ (.cons bound (.one given))

theorem guards_declarationStep (hsub : GuardsPhrases own sub) {declarations : List Child}
    (mine : OwnedAll own declarations) :
    Guards own (declarationStep sub declarations) fun answer => OwnedAll own answer.value := by
  refine (guards_variableDeclaration hsub).bind fun declaration one_ => either (.pure mine) ?_
  exact guards_orDone (.cons one_ mine)

theorem guards_variableDeclarationList (hsub : GuardsPhrases own sub) :
    Guards own (variableDeclarationList sub) (Owned own) := by
  refine .look looks_tokenStart fun start => .look looks_kind fun k => ?_
  refine Guards.moving.advance.step fun _ => ?_
  refine .bind (.repeating (fun _ => guards_declarationStep hsub) .nil) fun declarations mine => ?_
  exact mergedWhen <| .step (either (Guards.moving.reportHere _) (Guards.closed.pure _)) fun _ =>
    guards_addFlagged _ _ _ mine.reverse

theorem guards_variableStatement (hsub : GuardsPhrases own sub) :
    Guards own (variableStatement sub) (Owned own) := by
  refine .look looks_tokenStart fun start => ?_
  refine (guards_variableDeclarationList hsub).bind fun list mine => ?_
  exact Guards.moving.endStatement.step fun _ => guards_add _ _ (.one mine)

/-! ### Simple statements -/

theorem guards_emptyStatement : Guards own emptyStatement (Owned own) :=
  .look looks_tokenStart fun _ => Guards.moving.advance.step fun _ => guards_addBare _ _

theorem guards_debuggerStatement : Guards own debuggerStatement (Owned own) :=
  .look looks_tokenStart fun _ => Guards.moving.advance.step fun _ =>
    Guards.moving.endStatement.step fun _ => guards_addBare _ _

theorem guards_expressionStatement (hsub : GuardsPhrases own sub) :
    Guards own (expressionStatement sub) (Owned own) := by
  refine .look looks_tokenStart fun start => (guards_expression hsub).bind fun value mine => ?_
  exact either (.pure owned_none) (Guards.moving.endStatement.step fun _ => guards_add _ _ (.one mine))

theorem guards_labeledStatement (hsub : GuardsPhrases own sub) :
    Guards own (labeledStatement sub) (Owned own) := by
  refine .look looks_tokenStart fun start => guards_identifier.bind fun label named => ?_
  refine (Guards.moving.expect _).step fun _ => (hsub .statement).bind fun statement inner => ?_
  exact guards_add _ _ (.cons named (.one inner))

theorem guards_jumpStatement : Guards own (jumpStatement k) (Owned own) := by
  have rest (start : Nat) (labeled : Bool) : Guards own (do
      let label ← if labeled then identifier else pure none
      endStatement
      add k start (.jump label)) (Owned own) :=
    merged <| .bind (either guards_identifier (.pure owned_none)) fun label named =>
      Guards.moving.endStatement.step fun _ => guards_add _ _ (.one named)
  refine .look looks_tokenStart fun start => Guards.moving.advance.step fun _ => ?_
  refine .look looks_atIdentifier fun named => either ?_ (atOnce (rest start false))
  exact .look looks_afterLineBreak fun broken => atOnce (rest start _)

theorem guards_returnOrThrow (hsub : GuardsPhrases own sub) :
    Guards own (returnOrThrow sub k) (Owned own) := by
  refine .look looks_tokenStart fun start => Guards.moving.advance.step fun _ => ?_
  refine .look looks_atStatementEnd fun ends => ?_
  exact merged <| .bind (either (.pure owned_none) (guards_expression hsub)) fun value mine =>
    Guards.moving.endStatement.step fun _ => guards_add _ _ (.one mine)

/-! ### Choices and loops -/

theorem guards_condition (hsub : GuardsPhrases own sub) : Guards own (condition sub) (Owned own) := by
  refine (Guards.moving.expect _).step fun _ => (guards_expression hsub).bind fun value mine => ?_
  exact (Guards.moving.expect _).step fun _ => .pure mine

theorem guards_ifStatement (hsub : GuardsPhrases own sub) :
    Guards own (ifStatement sub) (Owned own) := by
  refine .look looks_tokenStart fun start => Guards.moving.advance.step fun _ => ?_
  refine (guards_condition hsub).bind fun test first => (hsub .statement).bind fun then_ second => ?_
  refine (Guards.moving.accept _).step fun found => ?_
  exact merged <| .bind (either (hsub .statement) (.pure owned_none)) fun else_ third =>
    guards_add _ _ (.cons first (.cons second (.one third)))

theorem guards_doStatement (hsub : GuardsPhrases own sub) :
    Guards own (doStatement sub) (Owned own) := by
  refine .look looks_tokenStart fun start => Guards.moving.advance.step fun _ => ?_
  refine (hsub .statement).bind fun statement inner => (Guards.moving.expect _).step fun _ => ?_
  refine (guards_condition hsub).bind fun test first => (Guards.moving.accept _).step fun _ => ?_
  exact guards_add _ _ (.cons owned_none (.cons first (.cons owned_none (.one inner))))

theorem guards_whileStatement (hsub : GuardsPhrases own sub) :
    Guards own (whileStatement sub) (Owned own) := by
  refine .look looks_tokenStart fun start => Guards.moving.advance.step fun _ => ?_
  refine (guards_condition hsub).bind fun test first => (hsub .statement).bind fun statement inner => ?_
  exact guards_add _ _ (.cons owned_none (.cons first (.cons owned_none (.one inner))))

theorem guards_forInitializer (hsub : GuardsPhrases own sub) :
    Guards own (forInitializer sub) (Owned own) := by
  refine .look (looks_isAt _) fun semicolon => either (.pure owned_none) ?_
  refine .look looks_atVariables fun found => either ?_ (.within _ (guards_expression hsub))
  exact .within _ (guards_variableDeclarationList hsub)

theorem guards_forMembers (hsub : GuardsPhrases own sub) (isAwait : Bool) {variable_ value : Child}
    (before : Owned own variable_) (given : Owned own value) :
    Guards own (forMembers sub k start isAwait variable_ value) (Owned own) := by
  refine (Guards.moving.expect _).step fun _ => (hsub .statement).bind fun statement inner => ?_
  exact guards_add _ _ (.cons before (.cons given (.one inner)))

theorem guards_forPart (hsub : GuardsPhrases own sub) (stop : Punctuator) :
    Guards own (forPart sub stop) (Owned own) :=
  .look (looks_isAt _) fun _ => either (.pure owned_none) (.within _ (guards_expression hsub))

theorem guards_forCondition (hsub : GuardsPhrases own sub) {initial : Child}
    (before : Owned own initial) : Guards own (forCondition sub start initial) (Owned own) := by
  refine (Guards.moving.expect _).step fun _ => (guards_forPart hsub _).bind fun test first => ?_
  refine (Guards.moving.expect _).step fun _ => (guards_forPart hsub _).bind fun next second => ?_
  refine (Guards.moving.expect _).step fun _ => (hsub .statement).bind fun statement inner => ?_
  exact guards_add _ _ (.cons before (.cons first (.cons second (.one inner))))

theorem guards_forStatement (hsub : GuardsPhrases own sub) :
    Guards own (forStatement sub) (Owned own) := by
  refine .look looks_tokenStart fun start => Guards.moving.advance.step fun _ => ?_
  refine (Guards.moving.accept _).step fun isAwait => (Guards.moving.expect _).step fun _ => ?_
  refine (guards_forInitializer hsub).bind fun initial before => ?_
  refine (Guards.moving.accept _).step fun of_ => either ?_ ?_
  · exact .bind (.within _ (guards_assignmentOrReport hsub)) fun value given =>
      guards_forMembers hsub isAwait before given
  refine (Guards.moving.accept _).step fun in_ => either ?_ (guards_forCondition hsub before)
  · exact .bind (.within _ (guards_expression hsub)) fun value given =>
      guards_forMembers hsub isAwait before given

/-! ### Switches -/

theorem guards_clauseBody (hsub : GuardsPhrases own sub) {value : Child} (given : Owned own value) :
    Guards own (clauseBody sub k start value) (Owned own) := by
  refine (Guards.moving.expect _).step fun _ => ?_
  refine (guards_statementList hsub _).bind fun statements mine => ?_
  exact guards_add _ _ (.cons given mine)

theorem guards_clauseStep (hsub : GuardsPhrases own sub) {clauses : List Child}
    (mine : OwnedAll own clauses) :
    Guards own (clauseStep sub clauses) fun answer => OwnedAll own answer.value := by
  refine .look looks_kind fun k => either (.pure mine) (.look looks_tokenStart fun start => ?_)
  refine (Guards.moving.accept _).step fun case_ => either ?_ ?_
  · refine (guards_expression hsub).bind fun value given => ?_
    exact (guards_clauseBody hsub given).bind fun clause one_ => .pure (.cons one_ mine)
  refine (Guards.moving.accept _).step fun default_ => either ?_ ?_
  · exact (guards_clauseBody hsub owned_none).bind fun clause one_ => .pure (.cons one_ mine)
  · exact (Guards.moving.expect _).step fun _ => Guards.moving.advance.step fun _ => .pure mine

theorem guards_switchStatement (hsub : GuardsPhrases own sub) :
    Guards own (switchStatement sub) (Owned own) := by
  refine .look looks_tokenStart fun start => Guards.moving.advance.step fun _ => ?_
  refine (guards_condition hsub).bind fun value given => .look looks_tokenStart fun blockStart => ?_
  refine (Guards.moving.expect _).step fun _ => ?_
  refine .bind (.repeating (fun _ => guards_clauseStep hsub) .nil) fun clauses mine => ?_
  refine (Guards.moving.expect _).step fun _ => ?_
  refine (guards_add _ _ mine.reverse).bind fun caseBlock inner => ?_
  exact guards_add _ _ (.cons given (.one inner))

/-! ### Exceptions -/

theorem guards_catchVariable (hsub : GuardsPhrases own sub) :
    Guards own (catchVariable sub) (Owned own) := by
  refine (Guards.moving.accept _).step fun group => either ?_ (.pure owned_none)
  refine .look looks_tokenStart fun start => ?_
  refine (guards_binding hsub).bind fun name bound => (Guards.moving.expect _).step fun _ => ?_
  exact guards_add _ _ (.cons bound (.one owned_none))

theorem guards_catchClause (hsub : GuardsPhrases own sub) :
    Guards own (catchClause sub) (Owned own) := by
  refine .look (looks_isAt _) fun word => either ?_ (.pure owned_none)
  refine .look looks_tokenStart fun start => Guards.moving.advance.step fun _ => ?_
  refine (guards_catchVariable hsub).bind fun declaration bound => ?_
  exact (guards_block hsub).bind fun body inner => guards_add _ _ (.cons bound (.one inner))

theorem guards_tryStatement (hsub : GuardsPhrases own sub) :
    Guards own (tryStatement sub) (Owned own) := by
  refine .look looks_tokenStart fun start => Guards.moving.advance.step fun _ => ?_
  refine (guards_block hsub).bind fun tryBlock first => ?_
  refine (guards_catchClause hsub).bind fun clause second => ?_
  refine (Guards.moving.accept _).step fun found => ?_
  refine merged <|
    .bind (either (guards_block hsub) (.pure owned_none)) fun finallyBlock third => ?_
  beta_reduce
  exact mergedWhen <| .step (either (Guards.moving.expect _) (Guards.closed.pure _)) fun _ =>
    guards_add _ _ (.cons first (.cons second (.one third)))

end PathGuard.Parser
