import PathGuard.Grammar.Operator
import PathGuard.Proofs.Grammar.Member
/-!
# What the parsers of operators and arrow functions make
-/

namespace PathGuard.Parser

variable {sub : PhraseParser} {at_ : TokenKind → Prop}

def expressionRole : Role := .of NodeKind.isExpression 0

/-! ### Operators -/

theorem makes_operatorBehind (hsub : MakesPhrases sub) :
    MakesAt at_ [] (operatorBehind sub) (one (.of NodeKind.isExpression 1)) := by
  refine .look looks_tokenStart fun start => (makes_leftHandSide hsub).call fun operand => ?_
  refine .look looks_kind fun k => .look looks_afterLineBreak fun broken => ?_
  refine decided (fun _ => .idle Idle.moving.advance fun _ => ?_) fun _ => .pure (.refl _)
  exact .add 1 (.same (Nat.le_refl 1) .nil) (fun _ => rfl) rfl

theorem operatorBefore_kind {c : Context} {k : TokenKind} {node : NodeKind}
    (h : operatorBefore? c k = some node) : node = .prefixUnary ∨ node = .awaitExpression := by
  unfold operatorBefore? at h
  split at h
  all_goals first
    | exact .inl (Option.some.inj h).symm
    | skip
  · split at h
    · exact .inr (Option.some.inj h).symm
    · cases h
  · cases h

theorem makes_unary (hsub : MakesPhrases sub) :
    MakesAt at_ [] (unary sub) (one expressionRole) := by
  refine .nested (by decide : 1 ≤ 2) ?_
  refine .look looks_tokenStart fun start => .look looks_kind fun k => ?_
  refine .look looks_context fun c => ?_
  split
  · next node h =>
    refine .idle Idle.moving.advance fun _ => (hsub .unary).call fun operand => ?_
    extract_lets join
    have joined (u : Unit) : Makes (one expressionRole operand) (join u)
        (one (.of NodeKind.isExpression 1)) := by
      rcases operatorBefore_kind h with rfl | rfl
      · exact .add 0 (.flat .nil) (fun _ => rfl) rfl
      · exact .add 0 (.flat .nil) (fun _ => rfl) rfl
    exact decided (fun _ => .idle (Idle.moving.reportHere _) joined) fun _ => joined ()
  · exact makes_operatorBehind hsub

theorem makes_operatorStep (hsub : MakesPhrases sub) (start least : Nat) (left : Child) :
    Makes (one expressionRole left) (operatorStep sub start least left)
      fun answer => one expressionRole answer.value := by
  refine .look looks_kind fun operator => .look looks_context fun c => ?_
  extract_lets binds
  refine decided (fun _ => .pure (.refl _)) fun _ => .idle Idle.moving.advance fun _ => ?_
  refine (hsub (.binary _)).call fun right => ?_
  extract_lets join
  have joined (u : Unit) : Makes (one expressionRole left ++ one expressionRole right) (join u)
      fun answer => one expressionRole answer.value := by
    refine .bind (Q := one expressionRole) ?_ fun node => .pure (.refl _)
    exact .add 0 (.flat (.flat .nil)) (fun _ => rfl) rfl
  exact decided (fun _ => .idle (Idle.moving.reportHere _) joined) fun _ => joined ()

theorem makes_binary (hsub : MakesPhrases sub) (least : Nat) :
    MakesAt at_ [] (binary sub least) (one expressionRole) := by
  refine .look looks_tokenStart fun start => (makes_unary hsub).call fun left => ?_
  refine decided (fun _ => .pure (.missing rfl (.nothing _))) fun _ => ?_
  exact .repeating (I := one expressionRole) (makes_operatorStep hsub start least) left

theorem makes_conditional (hsub : MakesPhrases sub) :
    MakesAt at_ [] (conditional sub) (one expressionRole) := by
  refine .look looks_tokenStart fun start => (makes_binary hsub 0).call fun condition => ?_
  refine decided (fun _ => .pure (.missing rfl (.nothing _))) fun _ => ?_
  refine .idle (Idle.moving.accept _) fun question => decided (fun _ => ?_) fun _ => .pure (.refl _)
  refine MakesAt.call (.within _ (makes_assignmentOrReport hsub)) fun whenTrue => ?_
  refine .idle (Idle.moving.expect _) fun _ =>
    (makes_assignmentOrReport hsub).call fun whenFalse => ?_
  exact .add 0 (.flat (.flat (.flat .nil))) (fun _ => rfl) rfl

/-! ### Arrow functions -/

theorem makes_arrowParameters (hsub : MakesPhrases sub) (isAsync : Bool) :
    MakesAt at_ [] (arrowParameters sub isAsync) fun parameters =>
      row parameterRole parameters.nodes := by
  refine .look (looks_isAt _) fun group => decided (fun _ => ?_) fun _ => ?_
  · exact .within _ (makes_parameterList hsub)
  refine .look looks_tokenStart fun start => ?_
  refine .call (Q := one (.of NodeKind.isBinding 0)) (makes_identifier rfl rfl) fun name => ?_
  refine .bind (Q := one parameterRole) ?_ fun node => .pure (.refl _)
  exact .add 0 (.flat (.missing .nil)) (fun _ => rfl) rfl

def bodyRole : Role := .of NodeKind.isBody 1

theorem isBody_of_expression (k : NodeKind) (_ : Nat) (h : k.isExpression = true) :
    k.isBody = true := by
  rw [NodeKind.isBody, h, Bool.or_true]

theorem makes_arrowBody (hsub : MakesPhrases sub) (isAsync : Bool) :
    MakesAt at_ [] (arrowBody sub isAsync) (one bodyRole) := by
  refine .look (looks_isAt _) fun braces => decided (fun _ => ?_) fun _ => ?_
  · exact .within _ (makes_block hsub rfl)
  · refine .within _ ((makes_assignmentOrReport hsub).imp fun value => .keep ?_ .nil)
    exact ⟨rfl, isBody_of_expression, Nat.zero_le 1, .inl⟩

theorem makes_arrowFunction (hsub : MakesPhrases sub) (isAsync : Bool) :
    MakesAt at_ [] (arrowFunction sub isAsync) (one (.of NodeKind.isExpression 0)) := by
  refine .look looks_tokenStart fun start => ?_
  extract_lets join
  have joined (u : Unit) : Makes [] (join u) (one (.of NodeKind.isExpression 0)) := by
    refine (makes_arrowParameters hsub isAsync).call fun parameters => ?_
    refine .idle (Idle.moving.expect _) fun _ => (makes_arrowBody hsub isAsync).call fun body => ?_
    refine .add 1 (.missing ?_) (fun _ => rfl) rfl
    exact .append (.row (fun _ _ h => h) (Nat.zero_le 1) _) (.same (Nat.le_refl 1) .nil)
  exact decided (fun _ => .idle Idle.moving.advance joined) fun _ => (joined ()).any

/-! ### Assignments -/

theorem looks_atYieldEnd : Looks atYieldEnd := by
  refine Looks.closed.bind looks_afterLineBreak fun broken => either (Looks.closed.pure _) ?_
  refine Looks.closed.bind looks_kind fun k => ?_
  split <;> exact Looks.closed.pure _

theorem makes_yieldExpression (hsub : MakesPhrases sub) :
    MakesAt at_ [] (yieldExpression sub) (one expressionRole) := by
  refine .look looks_tokenStart fun start => .idle Idle.moving.advance fun _ => ?_
  refine .look looks_afterLineBreak fun broken => ?_
  refine merged <| .idle (either (Idle.closed.pure _) (Idle.moving.accept _)) fun delegates => ?_
  beta_reduce
  refine merged <| .look (either (Looks.closed.pure _) looks_atYieldEnd) fun alone => ?_
  beta_reduce
  refine merged <| .call (Q := one expressionRole) ?_ fun operand => ?_
  · exact either (.pure (.missing rfl .nil)) (makes_assignmentOrReport hsub)
  exact .add 0 (.flat .nil) (fun _ => rfl) rfl

theorem makes_assignmentOrCondition (hsub : MakesPhrases sub) :
    MakesAt at_ [] (assignmentOrCondition sub) (one expressionRole) := by
  refine .look looks_tokenStart fun start => (makes_conditional hsub).call fun target => ?_
  refine .look looks_kind fun operator => decided (fun _ => ?_) fun _ => .pure (.refl _)
  refine .idle Idle.moving.advance fun _ => (makes_assignmentOrReport hsub).call fun value => ?_
  exact .add 0 (.flat (.flat .nil)) (fun _ => rfl) rfl

theorem makes_assignment (hsub : MakesPhrases sub) :
    MakesAt at_ [] (assignment sub) (one expressionRole) := by
  refine .nested (Nat.zero_le 2) ?_
  refine .look (looks_isAt _) fun yields => .look looks_context fun c => ?_
  refine decided (fun _ => makes_yieldExpression hsub) fun _ => ?_
  refine .look looks_arrowAhead fun found => ?_
  cases found with
  | some isAsync => exact makes_arrowFunction hsub isAsync
  | none => exact makes_assignmentOrCondition hsub

end PathGuard.Parser
