import PathGuard.Proofs.Guard.Pattern
import PathGuard.Proofs.Span.Class
/-!
# Coming back from blocks, functions and classes
-/

namespace PathGuard.Parser

variable {own : NodeId → Prop} {sub : PhraseParser} {start : Nat} {k : NodeKind} {name : Child}
  {modifiers : Option NodeList}

/-! ### Statements in a row -/

theorem guards_statementStep (hsub : GuardsPhrases own sub) (isEnd : TokenKind → Bool)
    {statements : List Child} (mine : OwnedAll own statements) :
    Guards own (statementStep sub isEnd statements) fun answer => OwnedAll own answer.value := by
  refine .look looks_kind fun k => either (.pure mine) (.look looks_tokenStart fun start => ?_)
  refine (hsub .statement).bind fun statement one_ => ?_
  have kept : OwnedAll own (if statement.isSome then statement :: statements else statements) := by
    split
    · exact .cons one_ mine
    · exact mine
  refine .look looks_kind fun k' => .look looks_tokenStart fun start' => either ?_ (.pure kept)
  exact (Guards.moving.reportHere _).step fun _ => Guards.moving.advance.step fun _ => .pure kept

theorem guards_statementList (hsub : GuardsPhrases own sub) (isEnd : TokenKind → Bool) :
    Guards own (statementList sub isEnd) fun row => OwnedAll own row.nodes := by
  refine .look looks_tokenStart fun start => ?_
  refine .bind (.repeating (fun _ => guards_statementStep hsub isEnd) .nil) fun statements mine => ?_
  exact guards_rowFrom mine.reverse

theorem guards_blockFrom (hsub : GuardsPhrases own sub) :
    Guards own (blockFrom sub k start) (Owned own) := by
  refine .look looks_tokenCursor fun brace => (Guards.moving.expect _).step fun _ => ?_
  refine (guards_statementList hsub _).bind fun statements mine => ?_
  refine (Guards.moving.expect _).step fun _ => .look (looks_spansLines _) fun multiLine => ?_
  exact guards_add _ _ mine

theorem guards_block (hsub : GuardsPhrases own sub) : Guards own (block sub) (Owned own) :=
  .look looks_tokenStart fun _ => guards_blockFrom hsub

/-! ### Functions -/

theorem guards_signatureAndBody (hsub : GuardsPhrases own sub) (isAsync isGenerator : Bool) :
    Guards own (signatureAndBody sub isAsync isGenerator) fun parts =>
      OwnedAll own parts.1.nodes ∧ Owned own parts.2 := by
  refine .within _ ((guards_parameterList hsub).bind fun parameters mine => ?_)
  exact (guards_block hsub).bind fun body inner => .pure ⟨mine, inner⟩

theorem guards_functionOf (hsub : GuardsPhrases own sub) {isAsync isGenerator : Bool}
    (before : OwnedAll own (Record.optionalNodes modifiers)) (named : Owned own name) :
    Guards own
      (do
        let (parameters, body) ← signatureAndBody sub isAsync isGenerator
        add k start (.function modifiers isAsync isGenerator name parameters body false))
      (Owned own) :=
  (guards_signatureAndBody hsub _ _).bind fun _ parts =>
    guards_add _ _ (before.append (.cons named (parts.1.append (.one parts.2))))

theorem guards_functionDeclaration (hsub : GuardsPhrases own sub) (nameOptional : Bool) :
    Guards own (functionDeclaration sub nameOptional) (Owned own) := by
  refine .look looks_tokenStart fun start => (Guards.moving.accept _).step fun isAsync => ?_
  refine (Guards.moving.expect _).step fun _ => (Guards.moving.accept _).step fun isGenerator => ?_
  refine .look looks_atIdentifier fun found => either ?_ (either ?_ ?_)
  · exact guards_identifier.bind fun name named => guards_functionOf hsub .nil named
  · exact guards_functionOf hsub .nil owned_none
  · exact (Guards.moving.reportHere _).step fun _ => guards_functionOf hsub .nil owned_none

theorem guards_functionExpression (hsub : GuardsPhrases own sub) :
    Guards own (functionExpression sub) (Owned own) := by
  refine .look looks_tokenStart fun start => (Guards.moving.accept _).step fun isAsync => ?_
  refine (Guards.moving.expect _).step fun _ => (Guards.moving.accept _).step fun isGenerator => ?_
  refine .look (looks_within looks_atIdentifier _) fun named => ?_
  exact merged <| .bind (either (guards_takeIdentifier _) (.pure owned_none)) fun name mine =>
    guards_functionOf hsub .nil mine

/-! ### Methods -/

theorem guards_accessorMark : Guards own accessorMark fun _ => True :=
  Guards.moving.accessorMark (.looks looks_atMemberMark)

theorem guards_methodMarks : Guards own methodMarks fun _ => True :=
  Guards.moving.methodMarks (.looks looks_atMemberMark)

theorem guards_method (hsub : GuardsPhrases own sub) (marks : MethodMarks)
    (before : OwnedAll own (Record.optionalNodes modifiers)) (named : Owned own name) :
    Guards own (method sub k start modifiers marks name) (Owned own) :=
  guards_functionOf hsub before named

/-! ### Members of classes -/

theorem guards_staticBlock (hsub : GuardsPhrases own sub) :
    Guards own (staticBlock sub start) (Owned own) :=
  Guards.moving.advance.step fun _ => .within _ (guards_blockFrom hsub)

theorem guards_field (hsub : GuardsPhrases own sub) (marks : MethodMarks)
    (before : OwnedAll own (Record.optionalNodes modifiers)) (named : Owned own name) :
    Guards own (field sub start modifiers marks name) (Owned own) := by
  have joined (value : Child) (given : Owned own value) : Guards own (do
      endStatement
      add .propertyDeclaration start (.propertyDeclaration modifiers name value)) (Owned own) :=
    Guards.moving.endStatement.step fun _ =>
      guards_add _ _ (before.append (.cons named (.one given)))
  unfold field
  refine mergedWhen <| .step (either (Guards.moving.expect _) (Guards.closed.pure _)) fun _ => ?_
  refine (Guards.moving.accept _).step fun equals => ?_
  exact merged <| .bind (either (.within _ (guards_assignmentOrReport hsub)) (.pure owned_none)) joined

theorem guards_namedMember (hsub : GuardsPhrases own sub) {modifiers : List Child}
    (before : OwnedAll own modifiers) :
    Guards own (namedMember sub start modifiers) (Owned own) := by
  have listed : OwnedAll own (Record.optionalNodes
      (if modifiers.isEmpty then none else some (.ofNodes modifiers))) := by
    split
    · exact .nil
    · exact before
  refine guards_methodMarks.step fun marks => ?_
  refine merged <|
    .look (either looks_atConstructorName (Looks.closed.pure _)) fun isConstructor => ?_
  refine (guards_propertyName hsub).bind fun name named => either (.pure owned_none) ?_
  refine .look (looks_isAt _) fun group => either ?_ ?_
  · exact guards_method hsub marks listed named
  · exact guards_field hsub marks listed named

theorem guards_classMember (hsub : GuardsPhrases own sub) :
    Guards own (classMember sub) (Owned own) := by
  have plain (start : Nat) : Guards own (namedMember sub start []) (Owned own) :=
    guards_namedMember hsub .nil
  refine .look looks_tokenStart fun start => .look (looks_isAt _) fun word => ?_
  refine merged <| .look (either looks_atMemberMark (Looks.closed.pure _)) fun isStatic => ?_
  beta_reduce
  refine either (.look looks_peek fun next => either (guards_staticBlock hsub) ?_) (plain start)
  refine .look looks_tokenEnd fun stop => (guards_addToken _ _ _).bind fun modifier mine => ?_
  exact Guards.moving.advance.step fun _ => guards_namedMember hsub (.one mine)

theorem guards_memberStep (hsub : GuardsPhrases own sub) {members : List Child}
    (mine : OwnedAll own members) :
    Guards own (memberStep sub members) fun answer => OwnedAll own answer.value := by
  refine .look looks_kind fun k => either (.pure mine) ?_
  refine (Guards.moving.accept _).step fun semicolon => ?_
  refine either (.pure mine) (.look looks_tokenStart fun start => ?_)
  refine (guards_classMember hsub).bind fun member one_ => either (.pure (.cons one_ mine)) ?_
  refine .look looks_tokenStart fun start' => mergedWhen ?_
  exact .step (either Guards.moving.advance (Guards.closed.pure _)) fun _ => .pure mine

/-! ### Classes -/

theorem guards_heritage (hsub : GuardsPhrases own sub) : Guards own (heritage sub) (Owned own) := by
  refine (Guards.moving.accept _).step fun found => either ?_ (.pure owned_none)
  refine (hsub .leftHandSide).bind fun parent mine => mergedWhen ?_
  exact .step (either (Guards.moving.reportHere _) (Guards.closed.pure _)) fun _ => .pure mine

theorem guards_classOf (hsub : GuardsPhrases own sub) (nameOptional : Bool) :
    Guards own (classOf sub k nameOptional) (Owned own) := by
  refine .look looks_tokenStart fun start => (Guards.moving.expect _).step fun _ => ?_
  refine .look looks_atIdentifier fun found => ?_
  extract_lets join nameless
  have joined (name : Child) (named : Owned own name) : Guards own (join name) (Owned own) := by
    refine (guards_heritage hsub).bind fun parent above => .look looks_tokenStart fun membersStart => ?_
    refine (Guards.moving.expect _).step fun _ => ?_
    refine .bind (.repeating (fun _ => guards_memberStep hsub) .nil) fun members mine => ?_
    refine (Guards.moving.expect _).step fun _ =>
      (guards_rowFrom mine.reverse).bind fun row inner => ?_
    exact guards_add _ _ (.cons named (.cons above inner))
  refine either (guards_identifier.bind joined) (either ?_ (joined none owned_none))
  exact (Guards.moving.reportHere _).step fun _ => joined none owned_none

end PathGuard.Parser
