import PathGuard.Proofs.Grammar.Operator
import PathGuard.Proofs.Span.Member
/-!
# Where operators and arrow functions lie
-/

namespace PathGuard.Parser

open Item

variable {x : Setting} {ready : Bool} {at_ : Lexer → Prop} {sub : PhraseParser} {start : Nat}

/-! ### Operators -/

theorem lays_operatorBehind (hsub : LaysPhrases x sub) :
    LaysAt x ready at_ [] (operatorBehind sub) (single .firm) := by
  refine .mark fun start => (lays_leftHandSide hsub).call fun operand => ?_
  refine .kind fun k _ => .look looks_afterLineBreak fun broken => ?_
  refine decided (fun behind => ?_) fun _ => .pure (.drop (.refl _))
  refine .advance (fun l here ended => ?_) (.add rfl (.must rfl .nil) rfl rfl)
  rw [← here.2, ended] at behind
  simp at behind

theorem lays_unary (hsub : LaysPhrases x sub) :
    LaysAt x ready at_ [] (unary sub) (single .firm) := by
  refine .nested (.mark fun start => .kind fun k _ => .look looks_context fun c => ?_) (.lost .nil)
  split
  · next node h =>
    refine .advance (fun l here ended => ?_) ?_
    · rw [← here.2, ended] at h
      cases h
    refine (hsub .unary).any.call fun operand => ?_
    extract_lets join
    have joined (u : Unit) : Lays x true [.mark start true, .piece operand .firm] (join u)
        (single .firm) := by
      rcases operatorBefore_kind h with rfl | rfl
      · exact .add rfl (.must rfl .nil) rfl rfl
      · exact .add rfl (.must rfl .nil) rfl rfl
    exact decided (fun _ => .steady (Steady.moving.reportHere _) joined) fun _ => joined ()
  · exact (lays_operatorBehind hsub).given (.nothing _)

theorem lays_operatorStep (hsub : LaysPhrases x sub) (least : Nat) (left : Child) :
    Lays x ready (linked start left) (operatorStep sub start least left)
      fun answer => linked start answer.value := by
  refine .kind fun operator _ => .look looks_context fun c => ?_
  extract_lets binds
  refine decided (fun _ => .pure (.refl _)) fun tighter => .advance (fun l here ended => ?_) ?_
  · refine tighter ?_
    unfold binds
    rw [← here.2, ended]
    exact Nat.zero_le least
  refine (hsub (.binary _)).any.call fun right => ?_
  extract_lets join
  have joined (u : Unit) : Lays x true
      [.mark start true, .piece left .firm, .piece right .firm] (join u)
      fun answer => linked start answer.value :=
    .bind (.addKeep rfl (.must rfl (.must rfl .nil)) rfl rfl) fun node => .pure covers_linked
  exact decided (fun _ => .steady (Steady.moving.reportHere _) joined) fun _ => joined ()

theorem lays_binary (hsub : LaysPhrases x sub) (least : Nat) :
    LaysAt x ready at_ [] (binary sub least) (single .firm) := by
  refine .mark fun start => (lays_unary hsub).call fun left => ?_
  refine decided (fun none_ => .pureNone none_ (.drop (.refl _))) fun _ => ?_
  exact (LaysAt.repeating (I := linked start) (lays_operatorStep hsub least) left).imp
    fun _ => .drop (.refl _)

theorem lays_conditional (hsub : LaysPhrases x sub) :
    LaysAt x ready at_ [] (conditional sub) (single .firm) := by
  refine .mark fun start => (lays_binary hsub 0).call fun condition => ?_
  refine decided (fun none_ => .pureNone none_ (.drop (.refl _))) fun _ => .acceptMark ?_ ?_
  · refine .call (.within _ (lays_assignmentOrReport hsub)) fun whenTrue => .expectMark ?_
    refine (lays_assignmentOrReport hsub).call fun whenFalse => ?_
    exact .add rfl (.must rfl (.must rfl (.must rfl .nil))) rfl rfl
  · exact .pure (.drop (.refl _))

/-! ### Arrow functions -/

theorem lays_arrowParameters (hsub : LaysPhrases x sub) (isAsync : Bool) :
    LaysAt x ready at_ [] (arrowParameters sub isAsync) fun parameters =>
      several .firm parameters.nodes := by
  refine .look (looks_isAt _) fun group => decided (fun _ => ?_) fun _ => .mark fun start => ?_
  · exact .within _ (lays_parameterList hsub)
  refine lays_identifier.call fun name => .bind ?_ fun node => .pure (.refl _)
  exact .add rfl (.must rfl (.missing .nil)) rfl rfl

theorem lays_arrowBody (hsub : LaysPhrases x sub) (isAsync : Bool) :
    LaysAt x true at_ [] (arrowBody sub isAsync) (single .firm) := by
  refine .look (looks_isAt _) fun braces => decided (fun _ => ?_) fun _ => ?_
  · exact .within _ (lays_block hsub)
  · exact .within _ (lays_assignmentOrReport hsub)

theorem lays_arrowFunction (hsub : LaysPhrases x sub) (isAsync : Bool) :
    LaysAt x ready at_ [] (arrowFunction sub isAsync) (single .firm) := by
  refine .mark fun start => ?_
  refine mergedWhen <| .steady (either Steady.moving.advance (Steady.closed.pure _)) fun _ => ?_
  refine (lays_arrowParameters hsub isAsync).call fun parameters => ?_
  refine .expectMark (.given ?_ (.of_pass _))
  refine (lays_arrowBody hsub isAsync).call fun body => ?_
  have fills : Item.Fills (several .firm parameters.nodes ++ single .firm body)
      (Record.places .arrowFunction (.function none isAsync false none parameters body true)) :=
    .missing (.append (.several rfl _) (.must rfl .nil))
  refine .add rfl fills ?_ rfl
  simp [single, isFirm, Grade.firm]

/-! ### Assignments -/

theorem lays_yieldExpression (hsub : LaysPhrases x sub) (notEnd : ∀ l, at_ l → NotEnd l) :
    LaysAt x ready at_ [] (yieldExpression sub) (single .firm) := by
  refine .mark fun start => .advance (fun l here => notEnd l here.1) ?_
  refine .look looks_afterLineBreak fun broken => ?_
  refine merged <|
    .steady (either (Steady.closed.pure _) (Steady.moving.accept _)) fun delegates => ?_
  beta_reduce
  refine merged <| .look (either (Looks.closed.pure _) looks_atYieldEnd) fun alone => ?_
  beta_reduce
  refine merged <| .call (Q := single .loose) ?_ fun operand => ?_
  · refine either (.pure (.missing rfl .nil)) ?_
    exact (lays_assignmentOrReport hsub).imp fun _ => .loose .nil
  · exact .add rfl (.may .nil) rfl rfl

theorem lays_assignmentOrCondition (hsub : LaysPhrases x sub) :
    LaysAt x ready at_ [] (assignmentOrCondition sub) (single .firm) := by
  refine .mark fun start => (lays_conditional hsub).call fun target => ?_
  refine .kind fun operator _ => decided (fun assigns => ?_) fun _ => .pure (.drop (.refl _))
  refine .advance (fun l here ended => ?_) ((lays_assignmentOrReport hsub).call fun value => ?_)
  · rw [← here.2, ended] at assigns
    cases (Bool.and_eq_true_iff.1 assigns).2
  · exact .add rfl (.must rfl (.must rfl .nil)) rfl rfl

theorem lays_assignment (hsub : LaysPhrases x sub) :
    LaysAt x ready at_ [] (assignment sub) (single .firm) := by
  refine .nested (.isAt (.look looks_context fun c => decided (fun _ => ?yields) fun _ => ?_)
    (.look looks_context fun c => decided (fun never => Bool.noConfusion never) fun _ => ?_)) (.lost .nil)
  case yields => exact lays_yieldExpression hsub fun l here => notEnd_word here.2
  all_goals
    refine .look looks_arrowAhead fun found => ?_
    cases found with
    | some isAsync => exact lays_arrowFunction hsub isAsync
    | none => exact lays_assignmentOrCondition hsub

end PathGuard.Parser
