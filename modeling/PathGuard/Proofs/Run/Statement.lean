import PathGuard.Proofs.Run.Operator
import PathGuard.Proofs.Span.Statement
/-!
# Running statements
-/

namespace PathGuard.Parser

open Known

variable {x : Room} {ready : Bool} {at_ : Lexer → Prop} {sub sub' : PhraseParser} {start : Nat}
  {k : NodeKind}

/-! ### Variables -/

theorem runs_variableDeclaration (tied : Tied x sub sub') :
    RunsAt x ready at_ [] (variableDeclaration sub) (variableDeclaration sub') plain := by
  refine .look looks_tokenStart fun start => (runs_binding tied).call fun name => ?_
  refine .ite (fun _ => .pure .plain_none) fun _ => ?_
  exact .steady (runs_initializer tied) fun value => .add rfl

theorem runs_declarationStep (tied : Tied x sub sub') (declarations : List Child) (n : Nat) :
    Runs x ready [.since n false] (declarationStep sub declarations) (declarationStep sub' declarations)
      (stepped (fun _ => []) n) := by
  refine (runs_variableDeclaration tied).call fun declaration => .ite (fun _ => .pure .nil) fun _ => ?_
  exact .acceptMark (.pure (.subset (by simp))) (.pure .nil)

theorem runs_variableDeclarationList (tied : Tied x sub sub') (notEnd : ∀ l, at_ l → NotEnd l) :
    RunsAt x ready at_ [] (variableDeclarationList sub) (variableDeclarationList sub') plain := by
  refine .look looks_tokenStart fun start => .look looks_kind fun k => .advance notEnd ?_
  refine .steady (.repeatingPlain (runs_declarationStep tied) []) fun declarations => ?_
  exact .mergedWhen <| .steady (.ite (fun _ => runs_reportHere _) fun _ => .pure .nil) fun _ =>
    .addFlagged rfl

theorem runs_variableStatement (tied : Tied x sub sub') (notEnd : ∀ l, at_ l → NotEnd l) :
    RunsAt x ready at_ [] (variableStatement sub) (variableStatement sub') plain := by
  refine .look looks_tokenStart fun start => (runs_variableDeclarationList tied notEnd).call fun list => ?_
  exact .steady runs_endStatement fun _ => .add rfl

/-! ### Simple statements -/

theorem runs_emptyStatement (notEnd : ∀ l, at_ l → NotEnd l) :
    RunsAt x ready at_ [] emptyStatement emptyStatement plain :=
  .look looks_tokenStart fun _ => .advance notEnd (.addBare rfl)

theorem runs_debuggerStatement (notEnd : ∀ l, at_ l → NotEnd l) :
    RunsAt x ready at_ [] debuggerStatement debuggerStatement plain :=
  .look looks_tokenStart fun _ => .advance notEnd (.steady runs_endStatement fun _ => .addBare rfl)

theorem runs_expressionStatement (tied : Tied x sub sub') :
    RunsAt x true at_ [] (expressionStatement sub) (expressionStatement sub') plain := by
  refine .look looks_tokenStart fun start => .steady ((runs_expression tied).imp fun _ => .nil)
    fun value => .ite (fun _ => .pure .plain_none) fun _ => ?_
  exact .steady runs_endStatement fun _ => .add rfl

theorem runs_statement_sub (tied : Tied x sub sub') :
    RunsAt x true at_ [] (sub .statement) (sub' .statement) fun _ => [] :=
  RunsAt.imp (tied.at' .statement).any fun _ => .nil

theorem runs_labeledStatement (tied : Tied x sub sub') :
    RunsAt x true at_ [] (labeledStatement sub) (labeledStatement sub') plain := by
  refine .look looks_tokenStart fun start => runs_identifier.call fun label => ?_
  refine .steady (runs_expectMark _) fun _ => .steady (runs_statement_sub tied) fun statement => ?_
  exact .add rfl

theorem runs_jumpStatement (ordinary : k.isOrdinary = true) (notEnd : ∀ l, at_ l → NotEnd l) :
    RunsAt x ready at_ [] (jumpStatement k) (jumpStatement k) plain := by
  have rest (start : Nat) (labeled : Bool) : Runs x true [] (do
      let label ← if labeled then identifier else pure none
      endStatement
      add k start (.jump label)) (do
      let label ← if labeled then identifier else pure none
      endStatement
      add k start (.jump label)) plain :=
    .merged <|
      .steady (.ite (fun _ => runs_identifier.imp fun _ => .nil) fun _ => .pure .nil) fun label =>
        .steady runs_endStatement fun _ => .add ordinary
  refine .look looks_tokenStart fun start => .advance notEnd (.look looks_atIdentifier fun named => ?_)
  refine .ite (fun _ => .look looks_afterLineBreak fun broken => ?_) fun _ => .known (rest start false)
  exact .known (rest start _)

theorem runs_returnOrThrow (tied : Tied x sub sub') (ordinary : k.isOrdinary = true)
    (notEnd : ∀ l, at_ l → NotEnd l) :
    RunsAt x ready at_ [] (returnOrThrow sub k) (returnOrThrow sub' k) plain := by
  refine .look looks_tokenStart fun start => .advance notEnd (.look looks_atStatementEnd fun ends => ?_)
  refine .merged <| .steady (.ite (fun _ => .pure .nil) fun _ => ?_) fun value => ?_
  · exact (runs_expression tied).imp fun _ => .nil
  · exact .steady runs_endStatement fun _ => .add ordinary

/-! ### Choices and loops -/

theorem runs_condition (tied : Tied x sub sub') :
    RunsAt x true at_ [] (condition sub) (condition sub') fun _ => [] := by
  refine .steady (runs_expectMark _) fun _ => ?_
  refine .steady ((runs_expression tied).imp fun _ => .nil) fun value => ?_
  exact .steady (runs_expectMark _) fun _ => .pure .nil

theorem runs_ifStatement (tied : Tied x sub sub') (notEnd : ∀ l, at_ l → NotEnd l) :
    RunsAt x ready at_ [] (ifStatement sub) (ifStatement sub') plain := by
  refine .look looks_tokenStart fun start => .advance notEnd ?_
  refine .steady (runs_condition tied) fun test => .steady (runs_statement_sub tied) fun then_ => ?_
  refine .steady (runs_acceptWord _) fun found => ?_
  refine .merged <| .steady (.ite (fun _ => runs_statement_sub tied) fun _ => .pure .nil) fun _ => ?_
  exact .add rfl

theorem runs_doStatement (tied : Tied x sub sub') (notEnd : ∀ l, at_ l → NotEnd l) :
    RunsAt x ready at_ [] (doStatement sub) (doStatement sub') plain := by
  refine .look looks_tokenStart fun start => .advance notEnd ?_
  refine .steady (runs_statement_sub tied) fun statement => .steady (runs_expectWord _) fun _ => ?_
  refine .steady (runs_condition tied) fun test => .steady (runs_acceptMark _) fun _ => ?_
  exact .add rfl

theorem runs_whileStatement (tied : Tied x sub sub') (notEnd : ∀ l, at_ l → NotEnd l) :
    RunsAt x ready at_ [] (whileStatement sub) (whileStatement sub') plain := by
  refine .look looks_tokenStart fun start => .advance notEnd ?_
  refine .steady (runs_condition tied) fun test => .steady (runs_statement_sub tied) fun statement => ?_
  exact .add rfl

/-! ### `for` -/

theorem runs_forInitializer (tied : Tied x sub sub') :
    RunsAt x true at_ [] (forInitializer sub) (forInitializer sub') fun _ => [] := by
  refine .isAt (.pure .nil) (.ask looks_atVariables notEnd_of_atVariables ?_ ?_)
  · exact .within _ ((runs_variableDeclarationList tied fun l here => here.2).imp fun _ => .nil)
  · exact .within _ ((runs_expression tied).imp fun _ => .nil)

theorem runs_forMembers (tied : Tied x sub sub') {initial value : Child} (isAwait : Bool)
    (ordinary : k.isOrdinary = true) :
    RunsAt x true at_ [] (forMembers sub k start isAwait initial value)
      (forMembers sub' k start isAwait initial value) plain :=
  .steady (runs_expectMark _) fun _ => .steady (runs_statement_sub tied) fun _ => .add ordinary

theorem runs_forPart (tied : Tied x sub sub') (stop : Punctuator) :
    RunsAt x true at_ [] (forPart sub stop) (forPart sub' stop) fun _ => [] :=
  .isAt (.pure .nil) (.within _ ((runs_expression tied).imp fun _ => .nil))

theorem runs_forCondition (tied : Tied x sub sub') {initial : Child} :
    RunsAt x true at_ [] (forCondition sub start initial) (forCondition sub' start initial) plain := by
  refine .steady (runs_expectMark _) fun _ => .steady (runs_forPart tied _) fun test => ?_
  refine .steady (runs_expectMark _) fun _ => .steady (runs_forPart tied _) fun next => ?_
  refine .steady (runs_expectMark _) fun _ => .steady (runs_statement_sub tied) fun statement => ?_
  exact .add rfl

theorem runs_forStatement (tied : Tied x sub sub') (notEnd : ∀ l, at_ l → NotEnd l) :
    RunsAt x ready at_ [] (forStatement sub) (forStatement sub') plain := by
  refine .look looks_tokenStart fun start => .advance notEnd ?_
  refine .steady (runs_acceptWord _) fun isAwait => .steady (runs_expectMark _) fun _ => ?_
  refine .steady (runs_forInitializer tied) fun initial => .acceptWord ?_ (.acceptWord ?_ ?_)
  · refine .steady (.within _ ((runs_assignmentOrReport tied).imp fun _ => .nil)) fun value => ?_
    exact runs_forMembers tied isAwait rfl
  · refine .steady (.within _ ((runs_expression tied).imp fun _ => .nil)) fun value => ?_
    exact runs_forMembers tied isAwait rfl
  · exact runs_forCondition tied

/-! ### `switch` -/

theorem runs_clauseBody (tied : Tied x sub sub') {value : Child} (ordinary : k.isOrdinary = true) :
    RunsAt x true at_ [] (clauseBody sub k start value) (clauseBody sub' k start value) plain :=
  .steady (runs_expectMark _) fun _ => .steady (runs_statementList tied _) fun _ => .add ordinary

theorem runs_clauseStep (tied : Tied x sub sub') (clauses : List Child) (n : Nat) :
    Runs x ready [.since n false] (clauseStep sub clauses) (clauseStep sub' clauses)
      (stepped (fun _ => []) n) := by
  refine .kind fun k => .ite (fun _ => .pure .nil) fun goesOn => .look looks_tokenStart fun start => ?_
  refine .acceptWord ?_ (.acceptWord ?_ ?_)
  · refine .steady ((runs_expression tied).imp fun _ => .nil) fun value => ?_
    exact (runs_clauseBody tied rfl).call fun clause => .pure (.subset (by simp))
  · exact (runs_clauseBody tied rfl).call fun clause => .pure (.subset (by simp))
  · refine .expectMissing (fun l here => here.1.2) (.advance (fun l here ended => ?_) ?_)
    · simp [← here.1.1.2, ended] at goesOn
    · exact .pure (.subset (by simp))

theorem runs_switchStatement (tied : Tied x sub sub') (notEnd : ∀ l, at_ l → NotEnd l) :
    RunsAt x ready at_ [] (switchStatement sub) (switchStatement sub') plain := by
  refine .look looks_tokenStart fun start => .advance notEnd ?_
  refine .steady (runs_condition tied) fun value => .look looks_tokenStart fun blockStart => ?_
  refine .steady (runs_expectMark _) fun _ => ?_
  refine .steady (.repeatingPlain (runs_clauseStep tied) []) fun clauses => ?_
  refine .steady (runs_expectMark _) fun _ => .bind (Q := plain) (.add rfl) fun caseBlock => ?_
  exact .add rfl

/-! ### Exceptions -/

theorem runs_catchVariable (tied : Tied x sub sub') :
    RunsAt x ready at_ [] (catchVariable sub) (catchVariable sub') plain := by
  refine .acceptMark (.look looks_tokenStart fun start => ?_) (.pure .plain_none)
  exact (runs_binding tied).call fun name => .steady (runs_expectMark _) fun _ => .add rfl

theorem runs_catchClause (tied : Tied x sub sub') :
    RunsAt x ready at_ [] (catchClause sub) (catchClause sub') plain := by
  refine .isAt (.look looks_tokenStart fun start => ?_) (.pure .plain_none)
  refine .advance (fun l here => notEnd_word here.2) ?_
  exact (runs_catchVariable tied).call fun declaration => (runs_block tied).call fun body => .add rfl

theorem runs_tryStatement (tied : Tied x sub sub') (notEnd : ∀ l, at_ l → NotEnd l) :
    RunsAt x ready at_ [] (tryStatement sub) (tryStatement sub') plain := by
  refine .look looks_tokenStart fun start => .advance notEnd ?_
  refine (runs_block tied).call fun tryBlock => (runs_catchClause tied).call fun clause => ?_
  refine .steady (runs_acceptWord _) fun found => ?_
  refine .merged <| .steady (.ite (fun _ => ?_) fun _ => .pure .nil) fun finallyBlock => ?_
  · exact (runs_block tied).imp fun _ => .nil
  · exact .mergedWhen <| .steady (.ite (fun _ => runs_expectWord _) fun _ => .pure .nil) fun _ =>
      .add rfl

end PathGuard.Parser
