import PathGuard.Proofs.Run.Member
import PathGuard.Proofs.Skip.Primary
/-!
# Skipping members and calls
-/

namespace PathGuard.Parser

variable {text : List Char} {at_ : Lexer → Prop} {sub : PhraseParser} {flags start : Nat}
  {questionDot : Bool} {object : Child}

/-! ### Arguments -/

theorem skips_argumentStep (hsub : SkipsPhrases text sub) (acc : List Child × Bool) :
    Skips text [] (argumentStep sub acc) closed := by
  refine .look looks_kind fun k => decided (fun _ => .pure rfl) fun _ => ?_
  refine (skips_spreadOrAssignment hsub).call fun argument => ?_
  refine decided (fun _ => .report (.pure _)) fun _ => ?_
  exact .acceptMark (.loose rfl) (.look (looks_isAt _) fun last => .pure rfl) (.pure rfl)

theorem skips_argumentList (hsub : SkipsPhrases text sub) :
    SkipsAt text at_ [] (argumentList sub) closed := by
  refine .look looks_tokenStart fun start => .expectMark (.opens rfl) ?_
  refine .call (.within _ (.repeating (skips_argumentStep hsub) ([], false))) fun acc => ?_
  exact .expectMark (.closes rfl) (.last fun _ => rfl)

/-! ### Links -/

theorem skips_propertyAccess :
    SkipsAt text at_ [] (propertyAccess flags start object questionDot) closed :=
  skips_identifierName.of_found.call fun _ => .addFlagged fun _ => rfl

theorem skips_elementAccess (hsub : SkipsPhrases text sub) :
    SkipsAt text at_ [] (elementAccess sub flags start object questionDot) closed := by
  refine .expectMark (.opens rfl) (.call (.within _ (skips_expression hsub)) fun key => ?_)
  exact .expectMark (.closes rfl) (.addFlagged fun _ => rfl)

theorem skips_call (hsub : SkipsPhrases text sub) :
    SkipsAt text at_ [] (call sub flags start object) closed :=
  (skips_argumentList hsub).call fun _ => .addFlagged fun _ => rfl

theorem skips_optionalLink (hsub : SkipsPhrases text sub) :
    SkipsAt text at_ [] (optionalLink sub start object) closed := by
  refine .look looks_kind fun k => ?_
  split
  · exact skips_elementAccess hsub
  · exact skips_call hsub
  · exact skips_propertyAccess

theorem skips_taggedTemplate (hsub : SkipsPhrases text sub) (chained : Bool)
    (literal : ∀ l, at_ l → l.kind = .literal .template ∨ l.kind = .literal .templateHead) :
    SkipsAt text at_ [] (taggedTemplate sub chained flags start object) closed := by
  have joined : SkipsAt text at_ [] (do
      let text ← template sub
      addFlagged .taggedTemplate flags start (.taggedTemplate object text)) closed :=
    (skips_template hsub literal).call fun _ => .addFlagged fun _ => rfl
  unfold taggedTemplate
  exact either (.report joined.notes) joined

theorem skips_linkStep (hsub : SkipsPhrases text sub) (allowCalls : Bool) (acc : Child × Bool) :
    Skips text [] (linkStep sub start allowCalls acc) closed := by
  obtain ⟨object, chained⟩ := acc
  refine .kind fun k => ?_
  split
  · refine .advanceLoose (fun l here => Lexer.isLoose_of_kind here.2 rfl) ?_
    exact skips_propertyAccess.call fun node => .pure rfl
  · exact (skips_elementAccess hsub).call fun node => .pure rfl
  · exact decided (fun _ => (skips_call hsub).call fun node => .pure rfl) fun _ => .pure rfl
  · refine decided (fun _ => ?_) fun _ => .pure rfl
    refine .advanceLoose (fun l here => Lexer.isLoose_of_kind here.2 rfl) ?_
    exact (skips_optionalLink hsub).call fun node => .pure rfl
  · exact (skips_taggedTemplate hsub chained fun l here => .inl here.2).call fun node => .pure rfl
  · exact (skips_taggedTemplate hsub chained fun l here => .inr here.2).call fun node => .pure rfl
  · exact .pure rfl

theorem skips_links (hsub : SkipsPhrases text sub) (allowCalls : Bool) :
    SkipsAt text at_ [] (links sub start object allowCalls) closed :=
  .call (.repeating (skips_linkStep hsub allowCalls) (object, false)) fun _ => .pure rfl

/-! ### What the links follow -/

theorem skips_callee (hsub : SkipsPhrases text sub) : SkipsAt text at_ [] (callee sub) closed := by
  have joined (start : Nat) (object : Child) : Skips text []
      (if object.isSome then links sub start object false
        else do
          reportHere .expressionExpected
          return none) closed :=
    decided (fun _ => skips_links hsub false) fun _ => .report (.pure none)
  refine .look looks_tokenStart fun start => .isAt ?_ ?_
  · exact ((hsub .newExpression).at' fun l here => here.2).call (joined start)
  · exact (skips_primary hsub).call (joined start)

theorem skips_newExpression (hsub : SkipsPhrases text sub) (loose : ∀ l, at_ l → l.IsLoose) :
    SkipsAt text at_ [] (newExpression sub) closed := by
  refine .nested (.look looks_tokenStart fun start => .advanceLoose loose ?_)
  refine .acceptMark (.loose rfl) ?_ ((skips_callee hsub).call fun object => .isAt ?_ ?_)
  · exact skips_identifierName.of_found.call fun name => .add fun _ => rfl
  · have listed : Skips text [] (some <$> argumentList sub) closed :=
      mapped <| (skips_argumentList hsub).call fun _ => .pure rfl
    exact listed.any.call fun arguments => .add fun _ => rfl
  · exact .add fun _ => rfl

theorem skips_leftHandSide (hsub : SkipsPhrases text sub) :
    SkipsAt text at_ [] (leftHandSide sub) closed := by
  have joined (start : Nat) (object : Child) : Skips text []
      (if object.isNone then pure none else links sub start object true) closed :=
    decided (fun _ => .pure rfl) fun _ => skips_links hsub true
  refine .look looks_tokenStart fun start => .isAt ?_ ?_
  · exact (skips_newExpression hsub fun l here => Lexer.isLoose_word here.2).call (joined start)
  · exact (skips_primary hsub).call (joined start)

end PathGuard.Parser
