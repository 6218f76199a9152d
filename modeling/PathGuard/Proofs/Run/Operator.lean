import PathGuard.Proofs.Run.Member
import PathGuard.Proofs.Span.Operator
/-!
# Running operators and arrow functions

The right operand of an operator that groups to the left binds more tightly than the operator, so the
chains of right operands within one level of nesting are no longer than there are degrees of binding.
-/

namespace PathGuard.Parser

open Known

variable {x : Room} {ready : Bool} {at_ : Lexer → Prop} {sub sub' : PhraseParser} {start : Nat}

/-! ### Operators -/

theorem runs_operatorBehind (tied : Tied x sub sub') {rest : Nat}
    (room : 2 * x.levels - 1 + 1 + 1 ≤ rest) (cap : rest ≤ 2 * maxDepth) :
    RunsAt x ready at_ [] (operatorBehind sub) (operatorBehind sub') fun c => [.low c 0 rest] := by
  refine .look looks_tokenStart fun start => (runs_leftHandSide tied).call fun operand => ?_
  refine .kind fun k => .look looks_afterLineBreak fun broken => .ite (fun behind => ?_) fun _ => ?_
  · refine .advance (fun l here ended => ?_) ?_
    · simp [← here.2, ended] at behind
    · exact .addDeeper (d := .operand) rfl rfl rfl nofun (List.mem_singleton_self _) room cap
  · exact .pure (.one (gives_low (List.mem_singleton_self _) (Nat.le_refl _) (by omega)))

theorem runs_unary (tied : Tied x sub sub') :
    RunsAt x ready at_ [] (unary sub) (unary sub') fun c => [.low c 0 (2 * x.levels)] := by
  refine .nested (fun room => ?_) (.one (gives_none _ _))
  have levels := x.levels_deeper room
  have cap := rest_cap x (Nat.le_refl _)
  refine .look looks_tokenStart fun start => .kind fun k => .look looks_context fun c => ?_
  split
  · next node h =>
    refine .advance (fun l here ended => ?_) ?_
    · rw [← here.2, ended] at h
      cases h
    refine (tied.deeper.at' .unary).any.call fun operand => ?_
    have joined : Runs x.deeper true [.low operand 0 (2 * x.deeper.levels)]
        (add node start (.unary (.token k) operand)) (add node start (.unary (.token k) operand))
        fun c => [.low c 0 (2 * x.levels)] := by
      rcases operatorBefore_kind h with rfl | rfl
      · exact .addDeeper (d := .operand) rfl rfl rfl nofun (List.mem_singleton_self _) (by omega) cap
      · exact .addDeeper (d := .operand) rfl rfl rfl nofun (List.mem_singleton_self _) (by omega) cap
    exact .mergedWhen <| .steady (.ite (fun _ => runs_reportHere _) fun _ => .pure .nil) fun _ =>
      joined
  · exact runs_operatorBehind tied.deeper (by omega) cap

theorem precedence_le (c : Context) (k : TokenKind) : precedence c k ≤ 11 := by
  unfold precedence
  split
  all_goals first | omega | (split <;> omega)

theorem runs_operatorStep (tied : Tied x sub sub') (least : Nat) (left : Child) (n : Nat) :
    Runs x ready (.since n false :: [.low left (11 - least) (2 * x.levels)])
      (operatorStep sub start least left) (operatorStep sub' start least left)
      (stepped (fun left => [.low left (11 - least) (2 * x.levels)]) n) := by
  refine .kind fun operator => .look looks_context fun c => ?_
  refine .ite (fun _ => .pure (.subset (List.subset_cons_self _ _))) fun tighter => ?_
  refine .advance (fun l here ended => tighter ?_) ?_
  · rw [← here.2, ended]
    exact Nat.zero_le least
  refine (tied.at' (.binary _)).any.call fun right => ?_
  have tightest := precedence_le c operator
  have cap : 11 - least ≤ 2 * maxDepth := by
    unfold maxDepth
    omega
  refine .mergedWhen <| .steady (.ite (fun _ => runs_reportHere _) fun _ => .pure .nil) fun _ => ?_
  refine .keep (Q := fun node => [.low node (11 - least) (2 * x.levels)]) ?_ fun node =>
    .pure (.subset (by simp))
  by_cases power : operator = .mark .asteriskAsterisk
  · subst power
    exact .addPower (by omega) cap
  · refine .addRight List.mem_concat_self ?_ cap
    rw [if_neg power]
    change 11 - precedence c operator + 1 ≤ 11 - least
    omega

theorem runs_binary (tied : Tied x sub sub') (least : Nat) :
    RunsAt x ready at_ [] (binary sub least) (binary sub' least)
      fun c => [.low c (11 - least) (2 * x.levels)] := by
  refine .look looks_tokenStart fun start => (runs_unary tied).call fun left => ?_
  refine .ite (fun _ => .pure (.one (gives_none _ _))) fun _ => ?_
  refine .given (.repeating (I := fun left => [.low left (11 - least) (2 * x.levels)])
    (runs_operatorStep tied least) left) (.one (gives_low List.mem_concat_self ?_ (Nat.le_refl _)))
  exact Nat.zero_le _

theorem runs_conditional (tied : Tied x sub sub') :
    RunsAt x ready at_ [] (conditional sub) (conditional sub')
      fun c => [.low c 11 (2 * x.levels)] := by
  refine .look looks_tokenStart fun start => (runs_binary tied 0).call fun condition => ?_
  refine .ite (fun _ => .pure (.one (gives_none _ _))) fun _ => .acceptMark ?_ (.pure (.refl _))
  refine .steady (.within _ ((runs_assignmentOrReport tied).imp fun _ => .nil)) fun whenTrue => ?_
  refine .steady (runs_expectMark _) fun _ => ?_
  refine .steady ((runs_assignmentOrReport tied).imp fun _ => .nil) fun whenFalse => ?_
  exact (RunsAt.add rfl).imp fun _ => .of_plain

/-! ### Arrow functions -/

theorem runs_arrowParameters (tied : Tied x sub sub') (isAsync : Bool) :
    RunsAt x ready at_ [] (arrowParameters sub isAsync) (arrowParameters sub' isAsync)
      fun _ => [] := by
  refine .look (looks_isAt _) fun group => .ite (fun _ => .within _ (runs_parameterList tied)) fun _ => ?_
  refine .look looks_tokenStart fun start => runs_identifier.call fun name => ?_
  exact RunsAt.bind (.add rfl) fun node => .pure .nil

theorem runs_arrowBody (tied : Tied x sub sub') (isAsync : Bool) :
    RunsAt x true at_ [] (arrowBody sub isAsync) (arrowBody sub' isAsync)
      fun c => [.low c (x.levels + 11) (2 * x.levels - 1)] := by
  refine .look (looks_isAt _) fun braces => .ite (fun _ => .within _ ?_) fun _ => .within _ ?_
  · exact (runs_block tied).imp fun _ => .of_plain
  · exact runs_assignmentOrReport tied

def assigned (x : Room) (c : Child) : List Known := [.low c (x.levels + 12) (2 * x.levels - 1 + 1)]

theorem runs_arrowFunction (tied : Tied x sub sub') (isAsync : Bool)
    (notEnd : isAsync = true → ∀ l, at_ l → NotEnd l) :
    RunsAt x true at_ [] (arrowFunction sub isAsync) (arrowFunction sub' isAsync) (assigned x) := by
  have rest (start : Nat) : Runs x true [] (do
      let parameters ← arrowParameters sub isAsync
      expectMark .arrow
      let body ← arrowBody sub isAsync
      add .arrowFunction start (.function none isAsync false none parameters body true)) (do
      let parameters ← arrowParameters sub' isAsync
      expectMark .arrow
      let body ← arrowBody sub' isAsync
      add .arrowFunction start (.function none isAsync false none parameters body true))
      (assigned x) := by
    refine .steady (runs_arrowParameters tied isAsync) fun parameters => ?_
    refine .steady (runs_expectMark _) fun _ => (runs_arrowBody tied isAsync).call fun body => ?_
    exact .addDeeper (d := .arrowBody) rfl rfl rfl nofun (List.mem_singleton_self _) (Nat.le_refl _)
      (inner_cap x)
  refine .look looks_tokenStart fun start => .ite (fun async => ?_) fun _ => (rest start).any
  exact .advance (notEnd async) (rest start)

/-! ### Assignments -/

theorem runs_yieldExpression (tied : Tied x sub sub') (notEnd : ∀ l, at_ l → NotEnd l) :
    RunsAt x true at_ [] (yieldExpression sub) (yieldExpression sub') (assigned x) := by
  refine .look looks_tokenStart fun start => .advance notEnd ?_
  refine .look looks_afterLineBreak fun broken => ?_
  refine .merged <|
    .steady (.ite (fun _ => .pure .nil) fun _ => runs_acceptMark _) fun delegates => ?_
  refine .merged <| .look (either (Looks.closed.pure _) looks_atYieldEnd) fun alone => ?_
  have made (operand : Child) : Runs x true [.low operand (x.levels + 11) (2 * x.levels - 1)]
      (add .yieldExpression start
        (.unary (.token (if delegates then .mark .asterisk else .word .yieldWord)) operand))
      (add .yieldExpression start
        (.unary (.token (if delegates then .mark .asterisk else .word .yieldWord)) operand))
      (assigned x) :=
    .addDeeper (d := .operand) rfl rfl rfl nofun (List.mem_singleton_self _) (Nat.le_refl _)
      (inner_cap x)
  refine .ite (fun _ => ?_) fun _ => (runs_assignmentOrReport tied).call made
  exact .known ((made none).given (.one (gives_none _ _)))

theorem runs_assignmentOrCondition (tied : Tied x sub sub') :
    RunsAt x true at_ [] (assignmentOrCondition sub) (assignmentOrCondition sub') (assigned x) := by
  refine .look looks_tokenStart fun start => (runs_conditional tied).call fun target => ?_
  refine .kind fun operator => .ite (fun assigns => ?_) fun _ => ?_
  · refine .advance (fun l here ended => ?_) ((runs_assignmentOrReport tied).call fun value => ?_)
    · rw [← here.2, ended] at assigns
      cases (Bool.and_eq_true_iff.1 assigns).2
    · exact .addRight List.mem_concat_self (Nat.le_refl _) (right_cap x (Nat.le_refl _))
  · exact .pure (.one (gives_low (List.mem_singleton_self _) (by omega) (by omega)))

theorem async_of_arrowAhead (s : ParserState) (found : (arrowAhead s).1 = some true) :
    s.lexer.kind = .word .asyncWord := by
  have kind : Parser.kind s = (s.lexer.kind, s) := rfl
  have plain (act : Parser Bool) : ((do return if ← lookAhead act then some false else none :
      Parser (Option Bool)) s).1 ≠ some true := by
    change (if (lookAhead act s).1 then some false else none) ≠ some true
    split <;> simp
  rw [arrowAhead, run_bind kind] at found
  generalize s.lexer.kind = k at found ⊢
  split at found
  · exact (plain _ found).elim
  · rfl
  · change ((if (atIdentifier s).1 then _ else _ : Parser (Option Bool)) s).1 = some true at found
    split at found
    · exact (plain _ found).elim
    · exact nomatch (show (none : Option Bool) = some true from found)

theorem RunsAt.arrowAhead {β : Type} {at_ : Lexer → Prop} {P : List Known} {R : β → List Known}
    {next next' : Option Bool → Parser β}
    (arrow : ∀ isAsync, RunsAt x ready (fun l => isAsync = true → NotEnd l) P (next (some isAsync))
      (next' (some isAsync)) R)
    (otherwise : Runs x ready P (next none) (next' none) R) :
    RunsAt x ready at_ P (Parser.arrowAhead >>= next) (Parser.arrowAhead >>= next') R := by
  refine .glance (fun found l => found = some true → NotEnd l) looks_arrowAhead
    (fun s found => notEnd_word (async_of_arrowAhead s found)) fun found => ?_
  cases found with
  | some isAsync => exact (arrow isAsync).at' fun l here async => here.2 (async ▸ rfl)
  | none => exact otherwise.any

theorem runs_assignment (tied : Tied x sub sub') :
    RunsAt x ready at_ [] (assignment sub) (assignment sub')
      fun c => [.low c (x.levels + 11) (2 * x.levels - 1)] := by
  refine .nested (fun room => ?_) (.one (gives_none _ _))
  have levels := x.levels_deeper room
  have low {at_ : Lexer → Prop} {act act' : Parser Child}
      (h : RunsAt x.deeper true at_ [] act act' (assigned x.deeper)) :
      RunsAt x.deeper true at_ [] act act' fun c => [.low c (x.levels + 11) (2 * x.levels - 1)] :=
    h.imp fun _ => .one (gives_low (List.mem_singleton_self _) (by omega) (by omega))
  refine .isAt (.look looks_context fun c => .ite (fun _ => ?_) fun _ => low (.arrowAhead ?_ ?_))
    (.look looks_context fun c => .ite (fun never => Bool.noConfusion never) fun _ =>
      low (.arrowAhead ?_ ?_))
  · exact low (runs_yieldExpression tied.deeper fun l here => notEnd_word here.2)
  · exact fun isAsync => runs_arrowFunction tied.deeper isAsync fun async l here => here async
  · exact runs_assignmentOrCondition tied.deeper
  · exact fun isAsync => runs_arrowFunction tied.deeper isAsync fun async l here => here async
  · exact runs_assignmentOrCondition tied.deeper

end PathGuard.Parser
