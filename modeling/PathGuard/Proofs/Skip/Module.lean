import PathGuard.Proofs.Run.Program
import PathGuard.Proofs.Skip.Statement
/-!
# Skipping imports, exports and every phrase

The rules of the grammar together: whatever fuel a parser of phrases is given, raw tokens can be walked
along with each of them.
-/

namespace PathGuard.Parser

variable {text : List Char} {at_ : Lexer → Prop} {sub : PhraseParser} {start : Nat} {k : NodeKind}

/-! ### What imports and exports have -/

theorem skips_exportName : SkipsAt text at_ [] exportName closed := by
  refine .kind fun k => decided (fun string => ?_) fun _ => ?_
  · exact skips_takeLiteral (fun l here => .loose (Lexer.isLoose_of_kind (here.2.trans string) rfl))
      fun _ => rfl
  · exact decided (fun _ => skips_identifierName.of_found) fun _ => .report (.pure none)

theorem skips_specifierStep (specifiers : List Child) :
    Skips text [] (specifierStep k specifiers) closed := by
  refine .look looks_kind fun t => decided (fun _ => .pure rfl) fun _ => ?_
  refine .look looks_tokenStart fun start => skips_exportName.call fun first => ?_
  refine decided (fun _ => .pure rfl) fun _ => (skips_acceptWord _).call fun renamed => ?_
  extract_lets join
  have joined (property name : Child) : Skips text [] (join (property, name)) closed :=
    .call (.add fun _ => rfl) fun specifier => .acceptMark (.loose rfl) (.pure rfl) (.pure rfl)
  refine decided (fun _ => ?_) fun _ => atOnce (joined none first)
  exact skips_exportName.call fun name => atOnce (joined first name)

theorem skips_specifiers {list specifier : NodeKind} :
    SkipsAt text at_ [] (specifiers list specifier) closed := by
  refine .look looks_tokenStart fun start => .expectMark (.opens rfl) ?_
  refine .call (.repeating skips_specifierStep []) fun elements => ?_
  exact .expectMark (.closes rfl) (.add fun _ => rfl)

theorem skips_moduleSpecifier : SkipsAt text at_ [] moduleSpecifier closed :=
  .isAt (skips_takeLiteral (fun _ here => .loose (Lexer.isLoose_of_kind here.2 rfl)) fun _ => rfl)
    (.report (.pure none))

theorem skips_importAttributes (hsub : SkipsPhrases text sub) :
    SkipsAt text at_ [] (importAttributes sub) closed := by
  refine .isAt (.look looks_afterLineBreak fun broken => decided (fun _ => .pure rfl) fun _ => ?_)
    (.pure rfl)
  refine .advanceLoose (fun l here => Lexer.isLoose_word here.2) ?_
  exact (skips_objectLiteral hsub).call fun attributes => .pure rfl

/-! ### Imports -/

theorem skips_namespaceImport (loose : ∀ l, at_ l → l.IsLoose) :
    SkipsAt text at_ [] namespaceImport closed := by
  refine .look looks_tokenStart fun start => .advanceLoose loose (.expectWord ?_)
  exact skips_identifier.of_found.call fun name => .add fun _ => rfl

theorem skips_importBindings (name : Child) : SkipsAt text at_ [] (importBindings name) closed := by
  refine .kind fun k => ?_
  split
  · exact skips_namespaceImport fun l here => Lexer.isLoose_of_kind here.2 rfl
  · exact skips_specifiers
  · exact mergedWhen <| .call (either (skips_reportHere _) (.pure rfl)) fun _ => .pure rfl

theorem skips_importClause : SkipsAt text at_ [] importClause closed := by
  refine .look looks_tokenStart fun start => .look looks_atIdentifier fun found => ?_
  refine merged <| .call (either skips_identifier.of_found (.pure rfl)) fun name => ?_
  beta_reduce
  refine merged <| .call (either (.pure rfl) (skips_acceptMark rfl)) fun more => ?_
  beta_reduce
  refine merged <| .call (either (skips_importBindings name) (.pure rfl)) fun bindings => ?_
  exact .add fun _ => rfl

theorem skips_importDeclaration (hsub : SkipsPhrases text sub) (loose : ∀ l, at_ l → l.IsLoose) :
    SkipsAt text at_ [] (importDeclaration sub) closed := by
  refine .look looks_tokenStart fun start => .advanceLoose loose (.look (looks_isAt _) fun bare => ?_)
  extract_lets join
  have joined (clause : Child) : Skips text [] (join clause) closed := by
    refine skips_moduleSpecifier.call fun specifier => (skips_importAttributes hsub).call fun _ => ?_
    exact skips_endStatement.call fun _ => .add fun _ => rfl
  refine decided (fun _ => atOnce (joined none)) fun _ => skips_importClause.call fun clause => ?_
  exact .expectWord (atOnce (joined clause))

/-! ### Exports -/

theorem skips_exportAssignment (hsub : SkipsPhrases text sub) :
    SkipsAt text at_ [] (exportAssignment sub) closed := by
  refine .look looks_tokenStart fun start => (skips_assignmentOrReport hsub).call fun value => ?_
  exact skips_endStatement.call fun _ => .add fun _ => rfl

theorem skips_defaultExport (hsub : SkipsPhrases text sub) :
    SkipsAt text at_ [] (defaultExport sub) closed := by
  refine .look looks_kind fun k => ?_
  split
  · exact skips_functionDeclaration hsub true
  · refine .look looks_asyncFunctionAhead fun found => ?_
    exact decided (fun _ => skips_functionDeclaration hsub true) fun _ =>
      skips_exportAssignment hsub
  · exact skips_classOf hsub true
  · exact skips_exportAssignment hsub

theorem skips_exportAll (hsub : SkipsPhrases text sub) (loose : ∀ l, at_ l → l.IsLoose) :
    SkipsAt text at_ [] (exportAll sub) closed := by
  refine .look looks_tokenStart fun start => .advanceLoose loose ?_
  extract_lets join
  have joined (clause : Child) : Skips text [] (join clause) closed := by
    refine .expectWord (skips_moduleSpecifier.call fun specifier => ?_)
    refine (skips_importAttributes hsub).call fun _ => skips_endStatement.call fun _ => ?_
    exact .pure rfl
  refine .acceptWord (skips_exportName.call fun name => ?_) ((joined none).any)
  exact .call (.add fun _ => rfl) fun clause => joined clause

theorem skips_exportNamed (hsub : SkipsPhrases text sub) :
    SkipsAt text at_ [] (exportNamed sub) closed := by
  refine skips_specifiers.call fun clause => (skips_acceptWord _).call fun from_ => ?_
  extract_lets join
  have joined (specifier : Child) : Skips text [] (join specifier) closed :=
    skips_endStatement.call fun _ => .pure rfl
  refine decided (fun _ => skips_moduleSpecifier.call fun specifier => ?_) fun _ =>
    atOnce (joined none)
  exact (skips_importAttributes hsub).call fun _ => atOnce (joined specifier)

theorem skips_exportedDeclaration (hsub : SkipsPhrases text sub) :
    SkipsAt text at_ [] (exportedDeclaration sub) closed := by
  refine .look looks_kind fun k => ?_
  split
  all_goals first | exact skips_statement_sub hsub | exact .report (.pure none)

theorem skips_exportDeclaration (hsub : SkipsPhrases text sub) (loose : ∀ l, at_ l → l.IsLoose) :
    SkipsAt text at_ [] (exportDeclaration sub) closed := by
  refine .look looks_tokenStart fun start => .advanceLoose loose ?_
  refine (skips_acceptWord _).call fun isDefault => ?_
  extract_lets join
  have joined (parts : Child × Child) : Skips text [] (join parts) closed := .add fun _ => rfl
  refine decided (fun _ => ?_) fun _ => .kind fun k => ?_
  · exact (skips_defaultExport hsub).call fun clause => atOnce (joined (clause, none))
  split
  · exact (skips_exportAll hsub fun l here => Lexer.isLoose_of_kind here.2 rfl).call joined
  · exact (skips_exportNamed hsub).call joined
  · exact (skips_exportedDeclaration hsub).call fun clause => atOnce (joined (clause, none))

/-! ### Every phrase -/

theorem skips_labeledOrExpression (hsub : SkipsPhrases text sub) :
    SkipsAt text at_ [] (labeledOrExpression sub) closed := by
  refine .look looks_atIdentifier fun named => ?_
  extract_lets join
  have joined (labeled : Bool) : SkipsAt text at_ [] (join labeled) closed := by
    unfold join
    exact either (skips_labeledStatement hsub) (skips_expressionStatement hsub)
  exact decided (fun _ => .look looks_peek fun next => atOnce (joined _)) fun _ =>
    atOnce (joined false)

theorem skips_statement (hsub : SkipsPhrases text sub) :
    SkipsAt text at_ [] (statement sub) closed := by
  refine .nested (.kind fun k => ?_)
  split
  · exact skips_block hsub
  · exact skips_emptyStatement fun l here => Lexer.isLoose_of_kind here.2 rfl
  · exact skips_variableStatement hsub fun l here => Lexer.isLoose_word here.2
  · exact skips_variableStatement hsub fun l here => Lexer.isLoose_word here.2
  · refine .look looks_letDeclarationAhead fun found => decided (fun _ => ?_) fun _ => ?_
    · exact skips_variableStatement hsub fun l here => Lexer.isLoose_word here.2
    · exact skips_labeledOrExpression hsub
  · exact skips_functionDeclaration hsub false
  · refine .look looks_asyncFunctionAhead fun found => ?_
    exact decided (fun _ => skips_functionDeclaration hsub false) fun _ =>
      skips_labeledOrExpression hsub
  · exact skips_classOf hsub false
  · exact skips_ifStatement hsub fun l here => Lexer.isLoose_word here.2
  · exact skips_doStatement hsub fun l here => Lexer.isLoose_word here.2
  · exact skips_whileStatement hsub fun l here => Lexer.isLoose_word here.2
  · exact skips_forStatement hsub fun l here => Lexer.isLoose_word here.2
  · exact skips_jumpStatement fun l here => Lexer.isLoose_word here.2
  · exact skips_jumpStatement fun l here => Lexer.isLoose_word here.2
  · exact skips_returnOrThrow hsub fun l here => Lexer.isLoose_word here.2
  · exact skips_returnOrThrow hsub fun l here => Lexer.isLoose_word here.2
  · exact skips_tryStatement hsub fun l here => Lexer.isLoose_word here.2
  · exact skips_switchStatement hsub fun l here => Lexer.isLoose_word here.2
  · exact skips_debuggerStatement fun l here => Lexer.isLoose_word here.2
  · refine .look looks_importExpressionAhead fun found => decided (fun _ => ?_) fun _ => ?_
    · exact skips_expressionStatement hsub
    · exact skips_importDeclaration hsub fun l here => Lexer.isLoose_word here.2
  · exact skips_exportDeclaration hsub fun l here => Lexer.isLoose_word here.2
  · exact skips_labeledOrExpression hsub

theorem skips_rule (hsub : SkipsPhrases text sub) : SkipsPhrases text (rule sub) := by
  intro p
  cases p with
  | statement => exact skips_statement hsub
  | assignment => exact skips_assignment hsub
  | unary => exact skips_unary hsub
  | binary least => exact skips_binary hsub least
  | leftHandSide => exact skips_leftHandSide hsub
  | newExpression => exact skips_newExpression hsub fun l here => Lexer.isLoose_word here
  | binding => exact skips_binding hsub

/-- Without fuel nothing is passed, so raw tokens can be walked along with every phrase. -/
theorem skips_phrase (text : List Char) (fuel : Nat) : SkipsPhrases text (phrase fuel) := by
  induction fuel with
  | zero => exact fun p => .pure rfl
  | succ fuel ih => exact skips_rule ih

end PathGuard.Parser
