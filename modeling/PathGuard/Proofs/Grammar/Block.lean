import PathGuard.Grammar.Block
import PathGuard.Proofs.Grammar.Pattern
/-!
# What the parsers of blocks and functions make
-/

namespace PathGuard.Parser

variable {sub : PhraseParser} {at_ : TokenKind → Prop} {role : Role}

/-! ### Statements in a row -/

def statementRole : Role := .of NodeKind.isStatement 0

theorem makes_statementStep (hsub : MakesPhrases sub) (isEnd : TokenKind → Bool)
    (statements : List Child) :
    Makes (row statementRole statements.reverse) (statementStep sub isEnd statements)
      fun answer => row statementRole answer.value.reverse := by
  refine .look looks_kind fun k => decided (fun _ => .pure (.refl _)) fun _ => ?_
  refine .look looks_tokenStart fun start => (hsub .statement).any.call fun statement => ?_
  have kept : Part.Covers (row statementRole statements.reverse ++ one statementRole statement)
      (row statementRole
        (if statement.isSome then statement :: statements else statements).reverse) := by
    split
    · exact covers_snoc ..
    · exact .init _ _
  refine .look looks_kind fun k' => .look looks_tokenStart fun start' => ?_
  refine decided (fun _ => ?_) fun _ => .pure kept
  exact .idle (Idle.moving.reportHere _) fun _ => .idle Idle.moving.advance fun _ => .pure kept

theorem makes_statementList (hsub : MakesPhrases sub) (isEnd : TokenKind → Bool) :
    MakesAt at_ [] (statementList sub isEnd) fun statements =>
      row statementRole statements.nodes := by
  refine .look looks_tokenStart fun start => ?_
  refine .bind (.repeating (I := fun statements => row statementRole statements.reverse)
    (makes_statementStep hsub isEnd) []) fun statements => ?_
  exact .rowFrom fun _ => .refl _

theorem makes_blockFrom (hsub : MakesPhrases sub) {k : NodeKind} (plain : k ≠ .caseBlock)
    (ok : becomes 0 k 0 .block role = true) (start : Nat) :
    MakesAt at_ [] (blockFrom sub k start) (one role) := by
  refine .look looks_tokenCursor fun brace => .idle (Idle.moving.expect _) fun _ => ?_
  refine (makes_statementList hsub _).call fun statements =>
    .idle (Idle.moving.expect _) fun _ => ?_
  refine .look (looks_spansLines _) fun multiLine => ?_
  have fills : Fills 0 (row statementRole statements.nodes)
      ((Record.block statements multiLine).roles k) := by
    rw [Record.roles, if_neg plain]
    exact .row (fun _ _ h => h) (Nat.le_refl 0) _
  exact .add 0 fills (fun _ => rfl) ok

def blockRole : Role := .of (· == .block) 1

theorem makes_block (hsub : MakesPhrases sub) (ok : becomes 0 .block 0 .block role = true) :
    MakesAt at_ [] (block sub) (one role) :=
  .look looks_tokenStart fun start => makes_blockFrom hsub (by decide) ok start

/-! ### Functions -/

theorem makes_signatureAndBody (hsub : MakesPhrases sub) (isAsync isGenerator : Bool) :
    MakesAt at_ [] (signatureAndBody sub isAsync isGenerator) fun signature =>
      row parameterRole signature.1.nodes ++ one blockRole signature.2 := by
  refine .within _ ?_
  refine (makes_parameterList hsub).call fun parameters => ?_
  exact (makes_block hsub rfl).call fun body => .pure (.refl _)

theorem fills_function {k : NodeKind} {modifiers : Option NodeList} {nameRole bodyRole : Role}
    {isAsync isGenerator isArrow : Bool} {name body : Child} {parameters : NodeList}
    (named : ∀ k' flags, nameRole.admits k' flags = true → Record.functionName k k' = true)
    (bodied : ∀ k' flags, bodyRole.admits k' flags = true → k'.isBody = true)
    (low : nameRole.rise ≤ 1) (low' : bodyRole.rise ≤ 1) :
    Fills 1 (row (.of NodeKind.isModifier 0) (Record.optionalNodes modifiers) ++
        one nameRole name ++ (row parameterRole parameters.nodes ++ one bodyRole body))
      ((Record.function modifiers isAsync isGenerator name parameters body isArrow).roles k) := by
  have front : Fills 1 (row (.of NodeKind.isModifier 0) (Record.optionalNodes modifiers))
      ((Record.optionalNodes modifiers).map (·, NodeKind.isModifier)) :=
    .row (fun _ _ h => h) (Nat.zero_le 1) _
  have behind : Fills 1 (row parameterRole parameters.nodes ++ one bodyRole body)
      (parameters.nodes.map (·, (· == .parameter)) ++ [(body, NodeKind.isBody)]) :=
    .append (.row (fun _ _ h => h) (Nat.zero_le 1) _) (.part bodied low' .nil)
  rw [List.append_assoc]
  exact front.append (.part named low behind)

theorem isBody_of_block (k : NodeKind) (_ : Nat) (h : (k == .block) = true) :
    k.isBody = true := by
  rw [NodeKind.isBody, h, Bool.true_or]

theorem makes_functionOf (hsub : MakesPhrases sub) {k : NodeKind}
    {nameRole : Role} {isAsync isGenerator : Bool} {name : Child} (modifiers : Option NodeList)
    (named : ∀ k' flags, nameRole.admits k' flags = true → Record.functionName k k' = true)
    (low : nameRole.rise ≤ 1) (ok : becomes 1 k 0 .function role = true) (start : Nat) :
    MakesAt at_ (row (.of NodeKind.isModifier 0) (Record.optionalNodes modifiers) ++
        one nameRole name)
      (do
        let (parameters, body) ← signatureAndBody sub isAsync isGenerator
        add k start (.function modifiers isAsync isGenerator name parameters body false))
      (one role) := by
  refine (makes_signatureAndBody hsub _ _).call fun signature => ?_
  exact .add 1 (fills_function named isBody_of_block low (Nat.le_refl 1)) (fun _ => rfl) ok

theorem makes_functionDeclaration (hsub : MakesPhrases sub) (nameOptional : Bool)
    (ok : becomes 1 .functionDeclaration 0 .function role = true) :
    MakesAt at_ [] (functionDeclaration sub nameOptional) (one role) := by
  refine .look looks_tokenStart fun start => .idle (Idle.moving.accept _) fun isAsync => ?_
  refine .idle (Idle.moving.expect _) fun _ => .idle (Idle.moving.accept _) fun isGenerator => ?_
  refine .look looks_atIdentifier fun found => ?_
  extract_lets join
  have joined (name : Child) : Makes (one (.of NodeKind.isName 0) name) (join name) (one role) :=
    makes_functionOf hsub none (fun _ _ h => h) (Nat.zero_le 1) ok start
  refine decided (fun _ => (makes_identifier rfl rfl).call joined) fun _ => ?_
  exact mergedUnless <| .idle (either (Idle.closed.pure _) (Idle.moving.reportHere _)) fun _ =>
    .without rfl joined

theorem makes_functionExpression (hsub : MakesPhrases sub)
    (ok : becomes 1 .functionExpression 0 .function role = true) :
    MakesAt at_ [] (functionExpression sub) (one role) := by
  refine .look looks_tokenStart fun start => .idle (Idle.moving.accept _) fun isAsync => ?_
  refine .idle (Idle.moving.expect _) fun _ => .idle (Idle.moving.accept _) fun isGenerator => ?_
  refine .look (looks_within looks_atIdentifier _) fun named => ?_
  refine merged <| .call (.optional (r := .of NodeKind.isName 0) rfl fun _ => makes_takeIdentifier rfl)
    fun name => ?_
  exact makes_functionOf hsub none (fun _ _ h => h) (Nat.zero_le 1) ok start

/-! ### Methods -/

theorem looks_atMemberMark : Looks atMemberMark := by
  refine Looks.closed.bind looks_peek fun next => Looks.closed.bind (looks_isAt _) fun async => ?_
  exact either (Looks.closed.pure _) (Looks.closed.pure _)

namespace Moving

variable {J : {α : Type} → Parser α → Prop} (moving : Moving J) (atMemberMark : J atMemberMark)
include moving atMemberMark

theorem accessorMark : J accessorMark := by
  refine moving.bind moving.kind fun k => ?_
  extract_lets found
  refine either (moving.bind atMemberMark fun marks => ?_) (moving.pure _)
  exact either (moving.bind moving.advance fun _ => moving.pure _) (moving.pure _)

theorem methodMarks : J methodMarks := by
  refine moving.bind (moving.isAt _) fun async => ?_
  extract_lets withAsync
  have rest (isAsync : Bool) : J (withAsync isAsync) := by
    unfold withAsync
    extract_lets withAccessor
    have last (accessor : Option Accessor) : J (withAccessor accessor) := by
      unfold withAccessor
      exact either (moving.bind (moving.accept _) fun _ => moving.pure _) (atOnce (moving.pure _))
    exact either (atOnce (last none)) (moving.bind (moving.accessorMark atMemberMark) last)
  refine either (moving.bind atMemberMark fun marks => ?_) (atOnce (rest false))
  exact either (moving.bind moving.advance fun _ => atOnce (rest true)) (atOnce (rest false))

end Moving

theorem idle_methodMarks : Idle methodMarks := Idle.moving.methodMarks looks_atMemberMark.idle

theorem shape_method (marks : MethodMarks) {plain : NodeKind} (h : plain.shape? = some .function) :
    (marks.kind plain).shape? = some .function := by
  unfold MethodMarks.kind
  split
  · rfl
  · rfl
  · exact h

theorem makes_method (hsub : MakesPhrases sub) {k : NodeKind}
    (named : Record.functionName k = NodeKind.isPropertyName)
    (ok : becomes 1 k 0 .function role = true) (start : Nat) (modifiers : Option NodeList)
    (marks : MethodMarks) (name : Child) :
    MakesAt at_ (row (.of NodeKind.isModifier 0) (Record.optionalNodes modifiers) ++
        one (.of NodeKind.isPropertyName 0) name)
      (method sub k start modifiers marks name) (one role) :=
  makes_functionOf hsub modifiers (fun _ _ h => named ▸ h) (Nat.zero_le 1) ok start

end PathGuard.Parser
