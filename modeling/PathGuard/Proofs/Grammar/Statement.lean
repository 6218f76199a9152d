import PathGuard.Grammar.Statement
import PathGuard.Proofs.Grammar.Operator
/-!
# What the parsers of statements make
-/

namespace PathGuard.Parser

variable {sub : PhraseParser} {at_ : TokenKind → Prop} {role : Role}

/-- A statement as it is made, before its depth is counted; what it encloses may rise by two. -/
def madeRole : Role := .of NodeKind.isStatement 2

/-! ### Variables -/

def declarationRole : Role := .of (· == .variableDeclaration) 0

theorem makes_variableDeclaration (hsub : MakesPhrases sub) :
    MakesAt at_ [] (variableDeclaration sub) (one declarationRole) := by
  refine .look looks_tokenStart fun start => (makes_binding hsub).call fun name => ?_
  refine decided (fun _ => .pure (.missing rfl (.nothing _))) fun _ => ?_
  refine (makes_initializer hsub).call fun value => ?_
  exact .add 0 (.flat (.flat .nil)) (fun _ => rfl) rfl

theorem makes_declarationStep (hsub : MakesPhrases sub) (declarations : List Child) :
    Makes (row declarationRole declarations.reverse) (declarationStep sub declarations)
      fun answer => row declarationRole answer.value.reverse := by
  refine (makes_variableDeclaration hsub).call fun declaration => ?_
  refine decided (fun _ => .pure (.init _ _)) fun _ => .idle (Idle.moving.accept _) fun comma => ?_
  exact decided (fun _ => .pure (covers_snoc ..)) fun _ => .pure (covers_snoc ..)

theorem declarationFlags_lt (k : TokenKind) : declarationFlags k < 3 := by
  unfold declarationFlags
  split <;> decide

theorem makes_variableDeclarationList (hsub : MakesPhrases sub)
    (ok : ∀ flags, becomes 0 .variableDeclarationList flags .variableList role = true) :
    MakesAt at_ [] (variableDeclarationList sub) (one role) := by
  refine .look looks_tokenStart fun start => .look looks_kind fun k => ?_
  refine .idle Idle.moving.advance fun _ => ?_
  refine .bind (.repeating (I := fun declarations => row declarationRole declarations.reverse)
    (makes_declarationStep hsub) []) fun declarations => ?_
  extract_lets join
  have joined (u : Unit) : Makes (row declarationRole declarations.reverse) (join u) (one role) :=
    .addFlagged 0 (.row (fun _ _ h => h) (Nat.le_refl 0) _)
      (fun _ _ _ _ => declarationFlags_lt k) (ok _)
  exact decided (fun _ => .idle (Idle.moving.reportHere _) joined) fun _ => joined ()

theorem makes_variableStatement (hsub : MakesPhrases sub) :
    MakesAt at_ [] (variableStatement sub) (one madeRole) := by
  refine .look looks_tokenStart fun start => ?_
  refine .call (Q := one (.of (· == .variableDeclarationList) 0))
    (makes_variableDeclarationList hsub fun _ => rfl) fun list =>
      .idle Idle.moving.endStatement fun _ => ?_
  exact .add 0 (.flat .nil) (fun _ => (by decide : 0 < 3)) rfl

/-! ### Simple statements -/

theorem makes_emptyStatement : MakesAt at_ [] emptyStatement (one madeRole) := by
  refine .look looks_tokenStart fun start => .idle Idle.moving.advance fun _ => ?_
  exact .addBare rfl rfl

theorem makes_debuggerStatement : MakesAt at_ [] debuggerStatement (one madeRole) := by
  refine .look looks_tokenStart fun start => .idle Idle.moving.advance fun _ => ?_
  exact .idle Idle.moving.endStatement fun _ => .addBare rfl rfl

theorem makes_expressionStatement (hsub : MakesPhrases sub) :
    MakesAt at_ [] (expressionStatement sub) (one madeRole) := by
  refine .look looks_tokenStart fun start => (makes_expression hsub).call fun value => ?_
  refine decided (fun _ => .pure (.missing rfl (.nothing _))) fun _ =>
    .idle Idle.moving.endStatement fun _ => ?_
  exact .add 0 (.flat .nil) (fun _ => rfl) rfl

theorem makes_labeledStatement (hsub : MakesPhrases sub) :
    MakesAt at_ [] (labeledStatement sub) (one madeRole) := by
  refine .look looks_tokenStart fun start => ?_
  refine .call (Q := one (.of NodeKind.isName 0)) (makes_identifier rfl rfl) fun label => ?_
  refine .idle (Idle.moving.expect _) fun _ => (hsub .statement).call fun statement => ?_
  exact .add 0 (.flat (.flat .nil)) (fun _ => rfl) rfl

theorem makes_jumpStatement {k : NodeKind} (ok : becomes 0 k 0 .jump role = true) :
    MakesAt at_ [] (jumpStatement k) (one role) := by
  refine .look looks_tokenStart fun start => .idle Idle.moving.advance fun _ => ?_
  refine .look looks_atIdentifier fun found => ?_
  extract_lets withLabel withLabeled
  have joined (labeled : Bool) : Makes [] (withLabeled labeled) (one role) := by
    unfold withLabeled
    refine merged <|
      .call (.optional (r := .of NodeKind.isName 0) rfl fun _ => makes_identifier rfl rfl)
      fun label => .idle Idle.moving.endStatement fun _ => ?_
    exact .add 0 (.flat .nil) (fun _ => rfl) ok
  refine decided (fun _ => ?_) fun _ => atOnce (joined false).any
  exact .look looks_afterLineBreak fun broken => atOnce (joined _).any

theorem makes_returnOrThrow (hsub : MakesPhrases sub) {k : NodeKind}
    (ok : becomes 0 k 0 .returnOrThrow role = true) :
    MakesAt at_ [] (returnOrThrow sub k) (one role) := by
  refine .look looks_tokenStart fun start => .idle Idle.moving.advance fun _ => ?_
  refine .look looks_atStatementEnd fun ends => ?_
  refine merged <| .call (Q := one expressionRole) ?_ fun value => ?_
  · exact either (.pure (.missing rfl .nil)) (makes_expression hsub)
  exact .idle Idle.moving.endStatement fun _ => .add 0 (.flat .nil) (fun _ => rfl) ok

/-! ### Choices and loops -/

theorem makes_condition (hsub : MakesPhrases sub) :
    MakesAt at_ [] (condition sub) (one expressionRole) := by
  refine .idle (Idle.moving.expect _) fun _ => (makes_expression hsub).call fun value => ?_
  exact .idle (Idle.moving.expect _) fun _ => .pure (.refl _)

theorem makes_ifStatement (hsub : MakesPhrases sub) :
    MakesAt at_ [] (ifStatement sub) (one madeRole) := by
  refine .look looks_tokenStart fun start => .idle Idle.moving.advance fun _ => ?_
  refine (makes_condition hsub).call fun test => (hsub .statement).call fun thenStatement => ?_
  refine .idle (Idle.moving.accept _) fun found => ?_
  refine merged <| .call (.optional rfl fun _ => (hsub .statement)) fun elseStatement => ?_
  exact .add 0 (.flat (.flat (.flat .nil))) (fun _ => rfl) rfl

theorem makes_doStatement (hsub : MakesPhrases sub) :
    MakesAt at_ [] (doStatement sub) (one madeRole) := by
  refine .look looks_tokenStart fun start => .idle Idle.moving.advance fun _ => ?_
  refine (hsub .statement).call fun statement => .idle (Idle.moving.expect _) fun _ => ?_
  refine (makes_condition hsub).call fun test => .idle (Idle.moving.accept _) fun _ => ?_
  -- the statement is made before the condition, but comes behind it among the parts
  exact .addReordered 0 (.swap ..) (.missing (.flat (.missing (.flat .nil)))) (fun _ _ _ _ => rfl) rfl

theorem makes_whileStatement (hsub : MakesPhrases sub) :
    MakesAt at_ [] (whileStatement sub) (one madeRole) := by
  refine .look looks_tokenStart fun start => .idle Idle.moving.advance fun _ => ?_
  refine (makes_condition hsub).call fun test => (hsub .statement).call fun statement => ?_
  exact .add 0 (.missing (.flat (.missing (.flat .nil)))) (fun _ => rfl) rfl

theorem looks_atVariables : Looks atVariables := by
  refine Looks.closed.bind looks_kind fun k => ?_
  split
  · exact Looks.closed.pure _
  · exact Looks.closed.pure _
  · exact looks_letDeclarationAhead
  · exact Looks.closed.pure _

def forHeadRole : Role := .of NodeKind.isForHead 0

theorem isForHead_of_expression (k : NodeKind) (_ : Nat) (h : k.isExpression = true) :
    k.isForHead = true := by
  rw [NodeKind.isForHead, h, Bool.true_or]

theorem makes_forInitializer (hsub : MakesPhrases sub) :
    MakesAt at_ [] (forInitializer sub) (one forHeadRole) := by
  refine .look (looks_isAt _) fun nothing =>
    decided (fun _ => .pure (.missing rfl .nil)) fun _ => ?_
  refine .look looks_atVariables fun declares => decided (fun _ => ?_) fun _ => ?_
  · exact .within _ (makes_variableDeclarationList hsub fun _ => rfl)
  · refine .within _ ((makes_expression hsub).imp fun value => .keep ?_ .nil)
    exact ⟨rfl, isForHead_of_expression, Nat.le_refl 0, .inl⟩

theorem makes_forMembers (hsub : MakesPhrases sub) {k : NodeKind} {initial value : Child}
    (ok : becomes 0 k 0 .forInOf role = true) (start : Nat) (isAwait : Bool) :
    MakesAt at_ (one forHeadRole initial ++ one expressionRole value)
      (forMembers sub k start isAwait initial value) (one role) := by
  refine .idle (Idle.moving.expect _) fun _ => (hsub .statement).call fun statement => ?_
  exact .add 0 (.flat (.flat (.flat .nil))) (fun _ => rfl) ok

theorem makes_forPart (hsub : MakesPhrases sub) (stop : Punctuator) :
    MakesAt at_ [] (forPart sub stop) (one expressionRole) := by
  refine .look (looks_isAt _) fun nothing =>
    decided (fun _ => .pure (.missing rfl .nil)) fun _ => ?_
  exact .within _ (makes_expression hsub)

theorem makes_forCondition (hsub : MakesPhrases sub) (start : Nat) (initial : Child) :
    MakesAt at_ (one forHeadRole initial) (forCondition sub start initial) (one madeRole) := by
  refine .idle (Idle.moving.expect _) fun _ => (makes_forPart hsub _).call fun test => ?_
  refine .idle (Idle.moving.expect _) fun _ => (makes_forPart hsub _).call fun next => ?_
  refine .idle (Idle.moving.expect _) fun _ => (hsub .statement).call fun statement => ?_
  exact .add 0 (.flat (.flat (.flat (.flat .nil)))) (fun _ => rfl) rfl

theorem makes_forStatement (hsub : MakesPhrases sub) :
    MakesAt at_ [] (forStatement sub) (one madeRole) := by
  refine .look looks_tokenStart fun start => .idle Idle.moving.advance fun _ => ?_
  refine .idle (Idle.moving.accept _) fun isAwait => .idle (Idle.moving.expect _) fun _ => ?_
  refine (makes_forInitializer hsub).call fun initial => .idle (Idle.moving.accept _) fun of_ => ?_
  refine decided (fun _ => ?_) fun _ => .idle (Idle.moving.accept _) fun in_ =>
    decided (fun _ => ?_) fun _ => ?_
  · refine MakesAt.call (.within _ (makes_assignmentOrReport hsub)) fun value => ?_
    exact makes_forMembers hsub rfl start isAwait
  · refine MakesAt.call (.within _ (makes_expression hsub)) fun value => ?_
    exact makes_forMembers hsub rfl start isAwait
  · exact makes_forCondition hsub start initial

def clauseRole : Role := .of NodeKind.isClause 0

theorem makes_clauseBody (hsub : MakesPhrases sub) {k : NodeKind} {value : Child}
    (ok : becomes 0 k 0 .caseClause clauseRole = true) (start : Nat) :
    MakesAt at_ (one expressionRole value) (clauseBody sub k start value) (one clauseRole) := by
  refine .idle (Idle.moving.expect _) fun _ =>
    (makes_statementList hsub _).call fun statements => ?_
  exact .add 0 (.flat (.row (fun _ _ h => h) (Nat.le_refl 0) _)) (fun _ => rfl) ok

theorem makes_clauseStep (hsub : MakesPhrases sub) (clauses : List Child) :
    Makes (row clauseRole clauses.reverse) (clauseStep sub clauses)
      fun answer => row clauseRole answer.value.reverse := by
  refine .look looks_kind fun k => decided (fun _ => .pure (.refl _)) fun _ => ?_
  refine .look looks_tokenStart fun start => .idle (Idle.moving.accept _) fun case_ => ?_
  refine decided (fun _ => ?_) fun _ => .idle (Idle.moving.accept _) fun default_ => ?_
  · refine (makes_expression hsub).call fun value => ?_
    exact .upon _ (makes_clauseBody hsub rfl start) fun clause => .pure (covers_snoc ..)
  refine decided (fun _ => ?_) fun _ => ?_
  · have clause : Makes [] (clauseBody sub .defaultClause start none) (one clauseRole) :=
      (makes_clauseBody hsub rfl start).given (.missing rfl .nil)
    exact clause.call fun clause => .pure (covers_snoc ..)
  · exact .idle (Idle.moving.expect _) fun _ => .idle Idle.moving.advance fun _ => .pure (.refl _)

theorem makes_switchStatement (hsub : MakesPhrases sub) :
    MakesAt at_ [] (switchStatement sub) (one madeRole) := by
  refine .look looks_tokenStart fun start => .idle Idle.moving.advance fun _ => ?_
  refine (makes_condition hsub).call fun value => .look looks_tokenStart fun blockStart => ?_
  refine .idle (Idle.moving.expect _) fun _ => ?_
  refine .call (Q := fun (clauses : List Child) => row clauseRole clauses.reverse)
    (.repeating (I := fun clauses => row clauseRole clauses.reverse) (makes_clauseStep hsub) [])
    fun clauses => .idle (Idle.moving.expect _) fun _ => ?_
  refine .upon (Q := one (.of (· == .caseBlock) 1)) _ ?_ fun caseBlock => ?_
  · exact .add 0 (.row (fun _ _ h => h) (Nat.le_refl 0) _) (fun _ => rfl) rfl
  · exact .add 1 (.flat (.same (Nat.le_refl 1) .nil)) (fun _ => rfl) rfl

/-! ### Exceptions -/

theorem makes_catchVariable (hsub : MakesPhrases sub) :
    MakesAt at_ [] (catchVariable sub) (one declarationRole) := by
  refine .idle (Idle.moving.accept _) fun group => decided (fun _ => ?_) fun _ =>
    .pure (.missing rfl .nil)
  refine .look looks_tokenStart fun start => (makes_binding hsub).call fun name => ?_
  refine .idle (Idle.moving.expect _) fun _ => ?_
  exact .add 0 (.flat (.missing .nil)) (fun _ => rfl) rfl

def catchRole : Role := .of (· == .catchClause) 2

theorem makes_catchClause (hsub : MakesPhrases sub) :
    MakesAt at_ [] (catchClause sub) (one catchRole) := by
  refine .look (looks_isAt _) fun found => decided (fun _ => ?_) fun _ => .pure (.missing rfl .nil)
  refine .look looks_tokenStart fun start => .idle Idle.moving.advance fun _ => ?_
  refine (makes_catchVariable hsub).call fun declaration => ?_
  refine .call (Q := one blockRole) (makes_block hsub rfl) fun body => ?_
  exact .add 1 (.flat (.same (Nat.le_refl 1) .nil)) (fun _ => rfl) rfl

theorem makes_tryStatement (hsub : MakesPhrases sub) :
    MakesAt at_ [] (tryStatement sub) (one madeRole) := by
  refine .look looks_tokenStart fun start => .idle Idle.moving.advance fun _ => ?_
  refine .call (Q := one blockRole) (makes_block hsub rfl) fun tryBlock => ?_
  refine (makes_catchClause hsub).call fun clause => .idle (Idle.moving.accept _) fun found => ?_
  refine merged <| .call (.optional (r := blockRole) rfl fun _ => makes_block hsub rfl)
    fun finallyBlock => ?_
  beta_reduce
  refine mergedWhen <| .idle (either (Idle.moving.expect _) (Idle.closed.pure _)) fun _ => ?_
  exact .add 2 (.same (by decide) (.same (Nat.le_refl 2) (.same (by decide) .nil))) (fun _ => rfl) rfl

end PathGuard.Parser
