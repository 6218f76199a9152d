import PathGuard.Proofs.Run.Statement
import PathGuard.Proofs.Skip.Operator
/-!
# Skipping statements
-/

namespace PathGuard.Parser

variable {text : List Char} {at_ : Lexer → Prop} {sub : PhraseParser} {start : Nat} {k : NodeKind}

/-! ### Variables -/

theorem skips_variableDeclaration (hsub : SkipsPhrases text sub) :
    SkipsAt text at_ [] (variableDeclaration sub) closed := by
  refine .look looks_tokenStart fun start => (skips_binding hsub).call fun name => ?_
  refine decided (fun _ => .pure rfl) fun _ => ?_
  exact (skips_initializer hsub).call fun value => .add fun _ => rfl

theorem skips_declarationStep (hsub : SkipsPhrases text sub) (declarations : List Child) :
    Skips text [] (declarationStep sub declarations) closed := by
  refine (skips_variableDeclaration hsub).call fun declaration =>
    decided (fun _ => .pure rfl) fun _ => ?_
  exact .acceptMark (.loose rfl) (.pure rfl) (.pure rfl)

theorem skips_variableDeclarationList (hsub : SkipsPhrases text sub)
    (loose : ∀ l, at_ l → l.IsLoose) :
    SkipsAt text at_ [] (variableDeclarationList sub) closed := by
  refine .look looks_tokenStart fun start => .look looks_kind fun k => .advanceLoose loose ?_
  refine .call (.repeating (skips_declarationStep hsub) []) fun declarations => ?_
  exact mergedWhen <| .call (either (skips_reportHere _) (.pure rfl)) fun _ => .addFlagged fun _ =>
    rfl

theorem skips_variableStatement (hsub : SkipsPhrases text sub) (loose : ∀ l, at_ l → l.IsLoose) :
    SkipsAt text at_ [] (variableStatement sub) closed := by
  refine .look looks_tokenStart fun start => ?_
  refine (skips_variableDeclarationList hsub loose).call fun list => ?_
  exact skips_endStatement.call fun _ => .add fun _ => rfl

/-! ### Simple statements -/

theorem skips_emptyStatement (loose : ∀ l, at_ l → l.IsLoose) :
    SkipsAt text at_ [] emptyStatement closed :=
  .look looks_tokenStart fun _ => .advanceLoose loose (.addBare fun _ => rfl)

theorem skips_debuggerStatement (loose : ∀ l, at_ l → l.IsLoose) :
    SkipsAt text at_ [] debuggerStatement closed :=
  .look looks_tokenStart fun _ =>
    .advanceLoose loose (skips_endStatement.call fun _ => .addBare fun _ => rfl)

theorem skips_expressionStatement (hsub : SkipsPhrases text sub) :
    SkipsAt text at_ [] (expressionStatement sub) closed := by
  refine .look looks_tokenStart fun start => (skips_expression hsub).call fun value => ?_
  exact decided (fun _ => .pure rfl) fun _ => skips_endStatement.call fun _ => .add fun _ => rfl

theorem skips_statement_sub (hsub : SkipsPhrases text sub) :
    SkipsAt text at_ [] (sub .statement) closed := (hsub .statement).any

theorem skips_labeledStatement (hsub : SkipsPhrases text sub) :
    SkipsAt text at_ [] (labeledStatement sub) closed := by
  refine .look looks_tokenStart fun start => skips_identifier.of_found.call fun label => ?_
  exact .expectMark (.loose rfl) ((skips_statement_sub hsub).call fun statement => .add fun _ => rfl)

theorem skips_jumpStatement (loose : ∀ l, at_ l → l.IsLoose) :
    SkipsAt text at_ [] (jumpStatement k) closed := by
  have rest (start : Nat) (labeled : Bool) : Skips text [] (do
      let label ← if labeled then identifier else pure none
      endStatement
      add k start (.jump label)) closed :=
    merged <| .call (either skips_identifier.of_found (.pure rfl)) fun label =>
      skips_endStatement.call fun _ => .add fun _ => rfl
  refine .look looks_tokenStart fun start => .advanceLoose loose ?_
  refine .look looks_atIdentifier fun named => ?_
  refine decided (fun _ => .look looks_afterLineBreak fun broken => ?_) fun _ =>
    atOnce (rest start false)
  exact atOnce (rest start _)

theorem skips_returnOrThrow (hsub : SkipsPhrases text sub) (loose : ∀ l, at_ l → l.IsLoose) :
    SkipsAt text at_ [] (returnOrThrow sub k) closed := by
  refine .look looks_tokenStart fun start => .advanceLoose loose ?_
  refine .look looks_atStatementEnd fun ends => ?_
  refine merged <| .call (either (.pure rfl) (skips_expression hsub)) fun value => ?_
  exact skips_endStatement.call fun _ => .add fun _ => rfl

/-! ### Choices and loops -/

theorem skips_condition (hsub : SkipsPhrases text sub) :
    SkipsAt text at_ [] (condition sub) closed := by
  refine .expectMark (.opens rfl) ((skips_expression hsub).call fun value => ?_)
  exact .expectMark (.closes rfl) (.pure rfl)

theorem skips_ifStatement (hsub : SkipsPhrases text sub) (loose : ∀ l, at_ l → l.IsLoose) :
    SkipsAt text at_ [] (ifStatement sub) closed := by
  refine .look looks_tokenStart fun start => .advanceLoose loose ?_
  refine (skips_condition hsub).call fun test => (skips_statement_sub hsub).call fun then_ => ?_
  refine (skips_acceptWord _).call fun found => ?_
  refine merged <| .call (either (skips_statement_sub hsub) (.pure rfl)) fun else_ => ?_
  exact .add fun _ => rfl

theorem skips_doStatement (hsub : SkipsPhrases text sub) (loose : ∀ l, at_ l → l.IsLoose) :
    SkipsAt text at_ [] (doStatement sub) closed := by
  refine .look looks_tokenStart fun start => .advanceLoose loose ?_
  refine (skips_statement_sub hsub).call fun statement => .expectWord ?_
  refine (skips_condition hsub).call fun test => (skips_acceptMark rfl).call fun _ => ?_
  exact .add fun _ => rfl

theorem skips_whileStatement (hsub : SkipsPhrases text sub) (loose : ∀ l, at_ l → l.IsLoose) :
    SkipsAt text at_ [] (whileStatement sub) closed := by
  refine .look looks_tokenStart fun start => .advanceLoose loose ?_
  refine (skips_condition hsub).call fun test => (skips_statement_sub hsub).call fun statement => ?_
  exact .add fun _ => rfl

/-! ### `for` -/

theorem isLoose_of_atVariables (s : ParserState) (found : (atVariables s).1 = true) :
    s.lexer.IsLoose := by
  have kind : Parser.kind s = (s.lexer.kind, s) := rfl
  rw [atVariables, run_bind kind] at found
  refine Lexer.isLoose_of_kind rfl ?_
  generalize s.lexer.kind = k at found ⊢
  split at found
  · rfl
  · rfl
  · rfl
  · cases found

theorem skips_forInitializer (hsub : SkipsPhrases text sub) :
    SkipsAt text at_ [] (forInitializer sub) closed := by
  refine .isAt (.pure rfl) (.ask looks_atVariables isLoose_of_atVariables ?_ ?_)
  · exact .within _ (skips_variableDeclarationList hsub fun l here => here.2)
  · exact .within _ (skips_expression hsub)

theorem skips_forMembers (hsub : SkipsPhrases text sub) {initial value : Child} (isAwait : Bool) :
    SkipsAt text at_ [.paren] (forMembers sub k start isAwait initial value) closed :=
  .expectMark (.closes rfl) ((skips_statement_sub hsub).call fun _ => .add fun _ => rfl)

theorem skips_forPart (hsub : SkipsPhrases text sub) (stop : Punctuator) :
    SkipsAt text at_ [] (forPart sub stop) closed :=
  .isAt (.pure rfl) (.within _ (skips_expression hsub))

theorem skips_forCondition (hsub : SkipsPhrases text sub) {initial : Child} :
    SkipsAt text at_ [.paren] (forCondition sub start initial) closed := by
  refine .expectMark (.loose rfl) ((skips_forPart hsub _).call fun test => ?_)
  refine .expectMark (.loose rfl) ((skips_forPart hsub _).call fun next => ?_)
  exact .expectMark (.closes rfl) ((skips_statement_sub hsub).call fun statement => .add fun _ => rfl)

theorem skips_forStatement (hsub : SkipsPhrases text sub) (loose : ∀ l, at_ l → l.IsLoose) :
    SkipsAt text at_ [] (forStatement sub) closed := by
  refine .look looks_tokenStart fun start => .advanceLoose loose ?_
  refine (skips_acceptWord _).call fun isAwait => .expectMark (.opens rfl) ?_
  refine (skips_forInitializer hsub).call fun initial => .acceptWord ?_ (.acceptWord ?_ ?_)
  · refine .call (.within _ (skips_assignmentOrReport hsub)) fun value => ?_
    exact skips_forMembers hsub isAwait
  · refine .call (.within _ (skips_expression hsub)) fun value => ?_
    exact skips_forMembers hsub isAwait
  · exact skips_forCondition hsub

/-! ### `switch` -/

theorem skips_clauseBody (hsub : SkipsPhrases text sub) {value : Child} :
    SkipsAt text at_ [] (clauseBody sub k start value) closed :=
  .expectMark (.loose rfl) ((skips_statementList hsub _).call fun _ => .add fun _ => rfl)

/-- A token that begins no clause is passed, whatever it is, but never without a note. -/
theorem skips_clauseStep (hsub : SkipsPhrases text sub) (clauses : List Child) :
    Skips text [] (clauseStep sub clauses) closed := by
  refine .look looks_kind fun k => decided (fun _ => .pure rfl) fun _ => ?_
  refine .look looks_tokenStart fun start => ?_
  refine .acceptWord ?_ (.acceptWord ?_ ?_)
  · refine (skips_expression hsub).call fun value => ?_
    exact (skips_clauseBody hsub).call fun clause => .pure rfl
  · exact (skips_clauseBody hsub).call fun clause => .pure rfl
  · exact .expectMissing (fun l here => here.1.2) (Notes.moving.advance.bind fun _ => .pure _)

theorem skips_switchStatement (hsub : SkipsPhrases text sub) (loose : ∀ l, at_ l → l.IsLoose) :
    SkipsAt text at_ [] (switchStatement sub) closed := by
  refine .look looks_tokenStart fun start => .advanceLoose loose ?_
  refine (skips_condition hsub).call fun value => .look looks_tokenStart fun blockStart => ?_
  refine .expectMark (.opens rfl) (.call (.repeating (skips_clauseStep hsub) []) fun clauses => ?_)
  exact .expectMark (.closes rfl) (.call (.add fun _ => rfl) fun caseBlock => .add fun _ => rfl)

/-! ### Exceptions -/

theorem skips_catchVariable (hsub : SkipsPhrases text sub) :
    SkipsAt text at_ [] (catchVariable sub) closed := by
  refine .acceptMark (.opens rfl) (.look looks_tokenStart fun start => ?_) (.pure rfl)
  exact (skips_binding hsub).call fun name => .expectMark (.closes rfl) (.add fun _ => rfl)

theorem skips_catchClause (hsub : SkipsPhrases text sub) :
    SkipsAt text at_ [] (catchClause sub) closed := by
  refine .isAt (.look looks_tokenStart fun start => ?_) (.pure rfl)
  refine .advanceLoose (fun l here => Lexer.isLoose_word here.2) ?_
  refine (skips_catchVariable hsub).call fun declaration => (skips_block hsub).call fun body => ?_
  exact .add fun _ => rfl

theorem skips_tryStatement (hsub : SkipsPhrases text sub) (loose : ∀ l, at_ l → l.IsLoose) :
    SkipsAt text at_ [] (tryStatement sub) closed := by
  refine .look looks_tokenStart fun start => .advanceLoose loose ?_
  refine (skips_block hsub).call fun tryBlock => (skips_catchClause hsub).call fun clause => ?_
  refine (skips_acceptWord _).call fun found => ?_
  refine merged <| .call (either (skips_block hsub) (.pure rfl)) fun finallyBlock => ?_
  beta_reduce
  exact decided (fun _ => .expectWord (.add fun _ => rfl)) fun _ => .add fun _ => rfl

end PathGuard.Parser
