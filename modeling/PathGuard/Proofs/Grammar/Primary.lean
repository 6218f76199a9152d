import PathGuard.Grammar.Primary
import PathGuard.Proofs.Grammar.Class
/-!
# What the parsers of primary expressions make
-/

namespace PathGuard.Parser

variable {sub : PhraseParser} {at_ : TokenKind → Prop} {role : Role}

def primaryRole : Role := .plain NodeKind.isExpression 1

/-! ### Templates -/

theorem rescanTemplate_literal (l : Lexer) : IsLiteral l.rescanTemplate.kind := ⟨_, rfl⟩

/-- A substitution in a template and the piece behind it. -/
def spanRole : Role := .of (· == .templateSpan) 0

theorem makes_templateSpanStep (hsub : MakesPhrases sub) (spans : List Child) :
    Makes (row spanRole spans.reverse) (templateSpanStep sub spans)
      fun answer => row spanRole answer.value.reverse := by
  refine .look looks_tokenStart fun start => ?_
  refine MakesAt.call (.within _ (makes_expression hsub)) fun value => ?_
  refine .look (looks_isAt _) fun closes => decided (fun _ => ?_) fun _ => ?_
  · refine .rescan (fun l _ => rescanTemplate_literal l) (.look (looks_isAt _) fun ends => ?_)
    refine .call (Q := one (.of NodeKind.isLiteral 0)) (makes_takeLiteral fun _ => rfl)
      fun literal => ?_
    rw [List.append_assoc]
    refine .upon (Q := one spanRole) _ (.add 0 (.flat (.flat .nil)) (fun _ => rfl) rfl)
      fun span => ?_
    cases ends <;> exact .pure (covers_snoc ..)
  · exact .idle (Idle.moving.expect _) fun _ => .pure (.init _ _)

theorem makes_template (hsub : MakesPhrases sub)
    (ok : ∀ l, becomes 0 (.token (.literal l)) 0 .literal role = true)
    (ok' : becomes 0 .templateExpression 0 .template role = true) :
    MakesAt IsLiteral [] (template sub) (one role) := by
  refine .isAt ((makes_takeLiteral ok).weaken fun k here => ⟨_, here⟩) ?_
  refine .look looks_tokenStart fun start => ?_
  refine .call (Q := one (.of NodeKind.isLiteral 0)) (makes_takeLiteral fun _ => rfl) fun head => ?_
  refine .call (Q := fun (spans : List Child) => row spanRole spans.reverse)
    (.repeating (I := fun spans => row spanRole spans.reverse) (makes_templateSpanStep hsub) [])
    fun spans => ?_
  exact .add 0 (.flat (.row (fun _ _ h => h) (Nat.le_refl 0) _)) (fun _ => rfl) ok'

/-! ### Brackets -/

theorem makes_parenthesized (hsub : MakesPhrases sub) :
    MakesAt at_ [] (parenthesized sub) (one primaryRole) := by
  refine .look looks_tokenStart fun start => .idle Idle.moving.advance fun _ => ?_
  refine MakesAt.call (.within _ (makes_expression hsub)) fun value => ?_
  refine .idle (Idle.moving.expect _) fun _ => ?_
  exact .add 0 (.flat .nil) (fun _ => rfl) rfl

theorem makes_spreadOrAssignment (hsub : MakesPhrases sub) {k : NodeKind} {kinds : NodeKind → Bool}
    (ok : becomes 0 k 0 .spread (.of kinds 0) = true)
    (expression : ∀ k, k.isExpression = true → kinds k = true) :
    MakesAt at_ [] (spreadOrAssignment sub k) (one (.of kinds 0)) := by
  refine .look (looks_isAt _) fun dots => decided (fun _ => ?_) fun _ => ?_
  · refine .look looks_tokenStart fun start => .idle Idle.moving.advance fun _ => ?_
    refine (makes_assignmentOrReport hsub).call fun value => ?_
    exact .add 0 (.flat .nil) (fun _ => rfl) ok
  · refine MakesAt.any ((hsub .assignment).imp fun child => .keep ?_ .nil)
    exact ⟨rfl, fun k _ h => expression k h, Nat.le_refl 0, .inl⟩

def arrayItemRole : Role := .of NodeKind.isArrayItem 0

theorem isArgument_of_expression (k : NodeKind) (h : k.isExpression = true) :
    k.isArgument = true := by
  rw [NodeKind.isArgument, h, Bool.true_or]

theorem isArrayItem_of_expression (k : NodeKind) (h : k.isExpression = true) :
    k.isArrayItem = true := by
  rw [NodeKind.isArrayItem, isArgument_of_expression k h, Bool.true_or]

theorem makes_arrayStep (hsub : MakesPhrases sub) (elements : List Child) :
    Makes (row arrayItemRole elements.reverse) (arrayStep sub elements)
      fun answer => row arrayItemRole answer.value.reverse := by
  refine .look looks_kind fun k => decided (fun _ => .pure (.refl _)) fun _ =>
    decided (fun _ => ?_) ?_
  · exact MakesAt.call (makes_hole rfl) fun node => .pure (covers_snoc ..)
  intro _
  refine (makes_spreadOrAssignment hsub rfl isArrayItem_of_expression).call fun element => ?_
  refine decided (fun _ => .idle (Idle.moving.reportHere _) fun _ => .pure (.init _ _)) fun _ => ?_
  refine .idle (Idle.moving.accept _) fun comma => ?_
  exact decided (fun _ => .pure (covers_snoc ..)) fun _ => .pure (covers_snoc ..)

theorem makes_arrayLiteral (hsub : MakesPhrases sub) :
    MakesAt at_ [] (arrayLiteral sub) (one primaryRole) := by
  refine .look looks_tokenStart fun start => .idle Idle.moving.advance fun _ => ?_
  refine .bind (Q := fun (elements : List Child) => row arrayItemRole elements.reverse)
    (.within _ (.repeating (I := fun elements => row arrayItemRole elements.reverse)
      (makes_arrayStep hsub) [])) fun elements => .idle (Idle.moving.expect _) fun _ => ?_
  exact .add 0 (.row (fun _ _ h => h) (Nat.le_refl 0) _) (fun _ => rfl) rfl

/-! ### Objects -/

def objectMemberRole : Role := .of NodeKind.isObjectMember 0

theorem isObjectMember_of_expression (k : NodeKind) (h : k.isExpression = true) :
    k.isObjectMember = true := by
  unfold NodeKind.isObjectMember
  split <;> first | rfl | exact h

theorem makes_shorthandProperty (hsub : MakesPhrases sub) (start : Nat) (name : Child) :
    MakesAt at_ (one (.of NodeKind.isPropertyName 0) name) (shorthandProperty sub start name)
      (one objectMemberRole) := by
  refine .idle (Idle.moving.accept _) fun hasEquals => ?_
  refine merged <| .call (.optional rfl fun _ => makes_assignmentOrReport hsub) fun value => ?_
  exact .add 0 (.flat (.flat .nil)) (fun _ => rfl) rfl

theorem makes_namedObjectMember (hsub : MakesPhrases sub) (start : Nat) (marks : MethodMarks)
    (shorthand : Bool) (name : Child) :
    MakesAt at_ (one (.of NodeKind.isPropertyName 0) name)
      (namedObjectMember sub start marks shorthand name) (one objectMemberRole) := by
  refine .look (looks_isAt _) fun group => decided (fun _ => ?_) fun _ => ?_
  · exact makes_method hsub (functionName_method marks rfl) (becomes_method marks rfl rfl rfl)
      start none marks name
  refine .idle (Idle.moving.accept _) fun colon => decided (fun _ => ?_) fun _ => ?_
  · refine (makes_assignmentOrReport hsub).call fun value => ?_
    exact .add 0 (.flat (.flat .nil)) (fun _ => rfl) rfl
  · refine decided (fun _ => makes_shorthandProperty hsub start name) fun _ => ?_
    exact .idle (Idle.moving.expect _) fun _ => .pure (.missing rfl (.nothing _))

theorem makes_objectMember (hsub : MakesPhrases sub) :
    MakesAt at_ [] (objectMember sub) (one objectMemberRole) := by
  refine .look looks_tokenStart fun start => .look (looks_isAt _) fun dots => ?_
  refine decided (fun _ => ?_) fun _ => .idle idle_methodMarks fun marks => ?_
  · exact makes_spreadOrAssignment hsub rfl isObjectMember_of_expression
  extract_lets join
  have joined (shorthand : Bool) : Makes [] (join shorthand) (one objectMemberRole) := by
    refine (makes_propertyName hsub).call fun name => decided (fun _ => ?_) fun _ => ?_
    · exact .idle (Idle.moving.reportHere _) fun _ => .pure (.missing rfl (.nothing _))
    · exact makes_namedObjectMember hsub start marks shorthand name
  exact decided (fun _ => .idle (Idle.closed.pure _) joined) fun _ =>
    .look looks_atIdentifier joined

theorem makes_objectMemberStep (hsub : MakesPhrases sub) (members : List Child) :
    Makes (row objectMemberRole members.reverse) (objectMemberStep sub members)
      fun answer => row objectMemberRole answer.value.reverse := by
  refine .look looks_kind fun k => decided (fun _ => .pure (.refl _)) fun _ => ?_
  refine (makes_objectMember hsub).call fun member => ?_
  refine decided (fun _ => .pure (.init _ _)) fun _ => .idle (Idle.moving.accept _) fun comma => ?_
  exact decided (fun _ => .pure (covers_snoc ..)) fun _ => .pure (covers_snoc ..)

theorem makes_objectLiteral (hsub : MakesPhrases sub) :
    MakesAt at_ [] (objectLiteral sub) (one primaryRole) := by
  refine .look looks_tokenCursor fun brace => .idle (Idle.moving.expect _) fun _ => ?_
  refine .bind (Q := fun (members : List Child) => row objectMemberRole members.reverse)
    (.within _ (.repeating (I := fun members => row objectMemberRole members.reverse)
      (makes_objectMemberStep hsub) [])) fun members => .idle (Idle.moving.expect _) fun _ => ?_
  refine .look (looks_spansLines _) fun multiLine => ?_
  exact .add 0 (.row (fun _ _ h => h) (Nat.le_refl 0) _) (fun _ => rfl) rfl

/-! ### All together -/

theorem makes_importExpression : MakesAt at_ [] importExpression (one primaryRole) := by
  refine .look looks_tokenStart fun start => .look looks_tokenEnd fun stop => ?_
  refine .idle Idle.moving.advance fun _ => .idle (Idle.moving.accept _) fun dot =>
    decided (fun _ => ?_) fun _ => ?_
  · refine .bind (Q := one (.of NodeKind.isMemberName 0))
      (makes_identifierName rfl (fun _ => rfl) rfl) fun name => ?_
    exact .add 0 (.flat .nil) (fun _ => rfl) rfl
  · refine .look (looks_isAt _) fun group => ?_
    refine mergedUnless <| .idle (either (Idle.closed.pure _) (Idle.moving.expect _)) fun _ => ?_
    exact .addToken rfl rfl

theorem makes_regularExpression :
    MakesAt (fun k => k = .mark .slash ∨ k = .mark .slashEquals) [] regularExpression
      (one primaryRole) := by
  have rescanned (l : Lexer) (here : l.kind = .mark .slash ∨ l.kind = .mark .slashEquals) :
      IsLiteral l.rescanSlash.kind := by
    unfold Lexer.rescanSlash
    rcases here with slash | slashEquals
    · simp [slash, IsLiteral]
    · simp [slashEquals, IsLiteral]
  exact .rescan rescanned (makes_takeLiteral fun _ => rfl)

theorem makes_nameOrReport : MakesAt at_ [] nameOrReport (one primaryRole) := by
  refine .look looks_atIdentifier fun found => ?_
  refine decided (fun _ => makes_identifier rfl rfl) fun _ => ?_
  exact .idle (Idle.moving.reportHere _) fun _ => .pure (.missing rfl .nil)

theorem makes_primary (hsub : MakesPhrases sub) :
    MakesAt at_ [] (primary sub) (one primaryRole) := by
  have literal (l : LiteralKind) :
      MakesAt (· = .literal l) [] takeLiteral (one primaryRole) :=
    (makes_takeLiteral fun _ => rfl).weaken fun k here => ⟨l, here⟩
  have text (l : LiteralKind) : MakesAt (· = .literal l) [] (template sub) (one primaryRole) :=
    (makes_template hsub (fun _ => rfl) rfl).weaken fun k here => ⟨l, here⟩
  have word (w : Keyword) (ok : NodeKind.shape? (.token (.word w)) = none ∧
      primaryRole.admits (.token (.word w)) 0 = true) :
      MakesAt (· = .word w) [] takeToken (one primaryRole) :=
    makes_takeToken fun k here => here ▸ ok
  refine .kind fun k _ => ?_
  split
  · exact literal _
  · exact literal _
  · exact literal _
  · exact text _
  · exact text _
  · exact word _ ⟨rfl, rfl⟩
  · exact word _ ⟨rfl, rfl⟩
  · exact word _ ⟨rfl, rfl⟩
  · exact word _ ⟨rfl, rfl⟩
  · exact word _ ⟨rfl, rfl⟩
  · exact makes_parenthesized hsub
  · exact makes_arrayLiteral hsub
  · exact makes_objectLiteral hsub
  · exact makes_functionExpression hsub rfl
  · refine .look looks_asyncFunctionAhead fun found => ?_
    exact decided (fun _ => makes_functionExpression hsub rfl) fun _ => makes_nameOrReport
  · exact makes_classOf hsub true rfl
  · exact makes_importExpression
  · exact makes_regularExpression.weaken fun k here => .inl here
  · exact makes_regularExpression.weaken fun k here => .inr here
  · exact makes_identifierName rfl (fun _ => rfl) rfl
  · exact makes_nameOrReport

end PathGuard.Parser
