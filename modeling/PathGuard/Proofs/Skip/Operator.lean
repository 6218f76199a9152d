import PathGuard.Proofs.Run.Operator
import PathGuard.Proofs.Skip.Member
/-!
# Skipping operators and arrow functions

No operator opens or closes anything.
-/

namespace PathGuard.Parser

variable {text : List Char} {at_ : Lexer → Prop} {sub : PhraseParser} {start : Nat}

/-! ### Operators -/

theorem isLoose_of_operatorBefore {c : Context} {k : TokenKind} {node : NodeKind}
    (operator : operatorBefore? c k = some node) : k.isLoose = true := by
  unfold operatorBefore? at operator
  split at operator
  all_goals first | rfl | cases operator

theorem isLoose_of_precedence {c : Context} {k : TokenKind} {least : Nat}
    (tighter : ¬precedence c k ≤ least) : k.isLoose = true := by
  unfold precedence at tighter
  split at tighter
  all_goals first | rfl | exact (tighter (Nat.zero_le _)).elim

theorem isLoose_of_isAssignment {k : TokenKind} (assigns : k.isAssignment = true) :
    k.isLoose = true := by
  cases k with
  | mark p => cases p <;> first | rfl | cases assigns
  | _ => cases assigns

theorem skips_operatorBehind (hsub : SkipsPhrases text sub) :
    SkipsAt text at_ [] (operatorBehind sub) closed := by
  refine .look looks_tokenStart fun start => (skips_leftHandSide hsub).call fun operand => ?_
  refine .kind fun k => .look looks_afterLineBreak fun broken => ?_
  refine decided (fun behind => ?_) fun _ => .pure rfl
  refine .advanceLoose (fun l here => Lexer.isLoose_of_kind here.2 ?_) (.add fun _ => rfl)
  simp only [Bool.and_eq_true, Bool.or_eq_true, beq_iff_eq] at behind
  rcases behind.1.2 with rfl | rfl
  · rfl
  · rfl

theorem skips_unary (hsub : SkipsPhrases text sub) : SkipsAt text at_ [] (unary sub) closed := by
  refine .nested (.look looks_tokenStart fun start => .kind fun k => .look looks_context fun c => ?_)
  split
  · next node operator =>
    have loose := isLoose_of_operatorBefore operator
    refine .advanceLoose (fun l here => Lexer.isLoose_of_kind here.2 loose) ?_
    refine (hsub .unary).any.call fun operand => mergedWhen ?_
    exact .call (either (skips_reportHere _) (.pure rfl)) fun _ => .add fun _ => rfl
  · exact skips_operatorBehind hsub

theorem skips_operatorStep (hsub : SkipsPhrases text sub) (least : Nat) (left : Child) :
    Skips text [] (operatorStep sub start least left) closed := by
  refine .kind fun operator => .look looks_context fun c => ?_
  refine decided (fun _ => .pure rfl) fun tighter => ?_
  refine .advanceLoose (fun l here => Lexer.isLoose_of_kind here.2 (isLoose_of_precedence tighter)) ?_
  refine (hsub (.binary _)).any.call fun right => mergedWhen ?_
  refine .call (either (skips_reportHere _) (.pure rfl)) fun _ => ?_
  exact .call (.add fun _ => rfl) fun node => .pure rfl

theorem skips_binary (hsub : SkipsPhrases text sub) (least : Nat) :
    SkipsAt text at_ [] (binary sub least) closed := by
  refine .look looks_tokenStart fun start => (skips_unary hsub).call fun left => ?_
  exact decided (fun _ => .pure rfl) fun _ => .repeating (skips_operatorStep hsub least) left

theorem skips_conditional (hsub : SkipsPhrases text sub) :
    SkipsAt text at_ [] (conditional sub) closed := by
  refine .look looks_tokenStart fun start => (skips_binary hsub 0).call fun condition => ?_
  refine decided (fun _ => .pure rfl) fun _ => .acceptMark (.loose rfl) ?_ (.pure rfl)
  refine .call (.within _ (skips_assignmentOrReport hsub)) fun whenTrue => ?_
  refine .expectMark (.loose rfl) ((skips_assignmentOrReport hsub).call fun whenFalse => ?_)
  exact .add fun _ => rfl

/-! ### Arrow functions -/

theorem skips_arrowParameters (hsub : SkipsPhrases text sub) (isAsync : Bool) :
    SkipsAt text at_ [] (arrowParameters sub isAsync) closed := by
  refine .look (looks_isAt _) fun group => ?_
  refine decided (fun _ => .within _ (skips_parameterList hsub)) fun _ => ?_
  refine .look looks_tokenStart fun start => skips_identifier.of_found.call fun name => ?_
  exact .call (.add fun _ => rfl) fun node => .pure rfl

theorem skips_arrowBody (hsub : SkipsPhrases text sub) (isAsync : Bool) :
    SkipsAt text at_ [] (arrowBody sub isAsync) closed := by
  refine .look (looks_isAt _) fun braces => decided (fun _ => .within _ ?_) fun _ => .within _ ?_
  · exact skips_block hsub
  · exact skips_assignmentOrReport hsub

theorem skips_arrowFunction (hsub : SkipsPhrases text sub) (isAsync : Bool)
    (loose : isAsync = true → ∀ l, at_ l → l.IsLoose) :
    SkipsAt text at_ [] (arrowFunction sub isAsync) closed := by
  have rest (start : Nat) : Skips text [] (do
      let parameters ← arrowParameters sub isAsync
      expectMark .arrow
      let body ← arrowBody sub isAsync
      add .arrowFunction start (.function none isAsync false none parameters body true)) closed := by
    refine (skips_arrowParameters hsub isAsync).call fun parameters => .expectMark (.loose rfl) ?_
    exact (skips_arrowBody hsub isAsync).call fun body => .add fun _ => rfl
  refine .look looks_tokenStart fun start => decided (fun async => ?_) fun _ => (rest start).any
  exact .advanceLoose (loose async) (rest start)

/-! ### Assignments -/

theorem skips_yieldExpression (hsub : SkipsPhrases text sub) (loose : ∀ l, at_ l → l.IsLoose) :
    SkipsAt text at_ [] (yieldExpression sub) closed := by
  refine .look looks_tokenStart fun start => .advanceLoose loose ?_
  refine .look looks_afterLineBreak fun broken => ?_
  refine merged <| .call (either (.pure rfl) (skips_acceptMark rfl)) fun delegates => ?_
  beta_reduce
  refine merged <| .look (either (Looks.closed.pure _) looks_atYieldEnd) fun alone => ?_
  beta_reduce
  exact merged <| .call (either (.pure rfl) (skips_assignmentOrReport hsub)) fun operand =>
    .add fun _ => rfl

theorem skips_assignmentOrCondition (hsub : SkipsPhrases text sub) :
    SkipsAt text at_ [] (assignmentOrCondition sub) closed := by
  refine .look looks_tokenStart fun start => (skips_conditional hsub).call fun target => ?_
  refine .kind fun operator => decided (fun assigns => ?_) fun _ => .pure rfl
  refine .advanceLoose (fun l here => Lexer.isLoose_of_kind here.2 ?_) ?_
  · exact isLoose_of_isAssignment (Bool.and_eq_true_iff.1 assigns).2
  · exact (skips_assignmentOrReport hsub).call fun value => .add fun _ => rfl

theorem SkipsAt.arrowAhead {β : Type} {opened : List Opening} {next : Option Bool → Parser β}
    {left : β → Option (List Opening)}
    (arrow : ∀ isAsync, SkipsAt text (fun l => isAsync = true → l.IsLoose) opened
      (next (some isAsync)) left)
    (otherwise : Skips text opened (next none) left) :
    SkipsAt text at_ opened (Parser.arrowAhead >>= next) left := by
  refine .glance (fun found l => found = some true → l.IsLoose) looks_arrowAhead
    (fun s found => Lexer.isLoose_word (async_of_arrowAhead s found)) fun found => ?_
  cases found with
  | some isAsync => exact (arrow isAsync).at' fun l here async => here.2 (async ▸ rfl)
  | none => exact otherwise.any

theorem skips_assignment (hsub : SkipsPhrases text sub) :
    SkipsAt text at_ [] (assignment sub) closed := by
  refine .nested (.isAt (.look looks_context fun c => decided (fun _ => ?_) fun _ => .arrowAhead ?_ ?_)
    (.look looks_context fun c => decided (fun never => Bool.noConfusion never) fun _ =>
      .arrowAhead ?_ ?_))
  · exact skips_yieldExpression hsub fun l here => Lexer.isLoose_word here.2
  · exact fun isAsync => skips_arrowFunction hsub isAsync fun async l here => here async
  · exact skips_assignmentOrCondition hsub
  · exact fun isAsync => skips_arrowFunction hsub isAsync fun async l here => here async
  · exact skips_assignmentOrCondition hsub

end PathGuard.Parser
