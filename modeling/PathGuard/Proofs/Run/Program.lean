import PathGuard.Proofs.Run.Module
import PathGuard.Proofs.Span.Program
/-!
# Running programs

A phrase inside another one is deeper or begins where less of the text is left, so the fuel that a parser
of phrases has is never used up: what it would do without fuel does not matter, and more fuel changes
nothing.
-/

namespace PathGuard

namespace Parser

open Known ParserState

variable {x : Room} {ready : Bool} {at_ : Lexer → Prop} {sub sub' : PhraseParser}

theorem runs_labeledOrExpression (tied : Tied x sub sub') :
    RunsAt x true at_ [] (labeledOrExpression sub) (labeledOrExpression sub') plain := by
  refine .look looks_atIdentifier fun named => ?_
  extract_lets join join'
  have joined (labeled : Bool) : Runs x true [] (join labeled) (join' labeled) plain :=
    .ite (fun _ => runs_labeledStatement tied) fun _ => runs_expressionStatement tied
  refine .ite (fun _ => ?_) fun _ => .known (joined false).any
  exact .look looks_peek fun next => .known (joined _).any

theorem runs_statement (tied : Tied x sub sub') :
    RunsAt x ready at_ [] (statement sub) (statement sub') plain := by
  refine .nested (fun _ => .kind fun k => ?_) .plain_none
  have tied := tied.deeper
  split
  · exact runs_block tied
  · exact runs_emptyStatement fun l here => notEnd_mark here.2
  · exact runs_variableStatement tied fun l here => notEnd_word here.2
  · exact runs_variableStatement tied fun l here => notEnd_word here.2
  · refine .look looks_letDeclarationAhead fun found => .ite (fun _ => ?_) fun _ => ?_
    · exact runs_variableStatement tied fun l here => notEnd_word here.2
    · exact runs_labeledOrExpression tied
  · exact runs_functionDeclaration tied false
  · refine .look looks_asyncFunctionAhead fun found => ?_
    exact .ite (fun _ => runs_functionDeclaration tied false) fun _ => runs_labeledOrExpression tied
  · exact runs_classOf tied false (fun l here => here.2) rfl
  · exact runs_ifStatement tied fun l here => notEnd_word here.2
  · exact runs_doStatement tied fun l here => notEnd_word here.2
  · exact runs_whileStatement tied fun l here => notEnd_word here.2
  · exact runs_forStatement tied fun l here => notEnd_word here.2
  · exact runs_jumpStatement rfl fun l here => notEnd_word here.2
  · exact runs_jumpStatement rfl fun l here => notEnd_word here.2
  · exact runs_returnOrThrow tied rfl fun l here => notEnd_word here.2
  · exact runs_returnOrThrow tied rfl fun l here => notEnd_word here.2
  · exact runs_tryStatement tied fun l here => notEnd_word here.2
  · exact runs_switchStatement tied fun l here => notEnd_word here.2
  · exact runs_debuggerStatement fun l here => notEnd_word here.2
  · refine .look looks_importExpressionAhead fun found => .ite (fun _ => ?_) fun _ => ?_
    · exact runs_expressionStatement tied
    · exact runs_importDeclaration tied fun l here => notEnd_word here.2
  · exact runs_exportDeclaration tied fun l here => notEnd_word here.2
  · exact runs_labeledOrExpression tied

theorem runs_rule (tied : Tied x sub sub') (p : Phrase) :
    RunsAt x ready p.begins [] (rule sub p) (rule sub' p)
      fun c => [.low c (p.right x.levels) (p.rest x.levels)] := by
  cases p with
  | statement => exact runs_statement tied
  | assignment => exact runs_assignment tied
  | unary => exact runs_unary tied
  | binary least => exact runs_binary tied least
  | leftHandSide => exact runs_leftHandSide tied
  | newExpression => exact runs_newExpression tied fun l here => notEnd_word here
  | binding => exact runs_binding tied

/-! ### Fuel -/

/-- Every phrase, with at most `fuel` phrases inside each other; without fuel, `stuck` is done. -/
def phraseFrom (stuck : PhraseParser) : (fuel : Nat) → PhraseParser
  | 0 => stuck
  | fuel + 1 => rule (phraseFrom stuck fuel)

theorem phrase_eq_phraseFrom (fuel : Nat) : phrase fuel = phraseFrom (fun _ => return none) fuel := by
  induction fuel with
  | zero => rfl
  | succ fuel ih =>
    funext p
    change rule (phrase fuel) p = rule (phraseFrom _ fuel) p
    rw [ih]

/-- One who has a phrase to spare never runs out of fuel. -/
theorem tied_phraseFrom (stuck stuck' : PhraseParser) (text : List Char) (depth : Nat)
    {fuel fuel' : Nat} (le : fuel ≤ fuel') :
    Tied ⟨text, fuel, depth⟩ (phraseFrom stuck fuel) (phraseFrom stuck' fuel') := by
  induction fuel generalizing fuel' with
  | zero =>
    intro depth p s begins _
    exact absurd begins.enough (by simp)
  | succ fuel ih =>
    obtain ⟨fuel', rfl⟩ := Nat.exists_eq_add_of_le' (Nat.lt_of_lt_of_le (Nat.succ_pos _) le)
    intro depth p s begins here
    have ruled : RunsAt ⟨text, fuel, depth⟩ false p.begins [] _ _ _ :=
      runs_rule (x := ⟨text, fuel, depth⟩) (ih (Nat.le_of_succ_le_succ le)) p
    refine ruled s { begins with enough := ?_ } here
    have enough := begins.enough
    simp only [Room.levels, Bool.toNat_true, Bool.toNat_false] at *
    omega

end Parser

end PathGuard
