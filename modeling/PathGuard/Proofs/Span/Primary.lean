import PathGuard.Grammar.Primary
import PathGuard.Proofs.Span.Class
/-!
# Where primary expressions lie
-/

namespace PathGuard.Parser

open Item

variable {x : Setting} {ready : Bool} {at_ : Lexer → Prop} {sub : PhraseParser} {start : Nat}
  {k : NodeKind}

/-! ### Templates -/

theorem lays_templateSpanStep (hsub : LaysPhrases x sub) (spans : List Child) :
    Lays x true (several .firm spans.reverse) (templateSpanStep sub spans)
      fun answer => several .firm answer.value.reverse := by
  refine .mark fun start => .call (.within _ (lays_expression hsub)) fun value => ?_
  refine .isAt (.rescan (fun l => IsLiteral l.kind)
    (fun l here sits => ⟨sits.rescanTemplate here.2, rfl⟩) (fun l _ => ⟨_, rfl⟩) ?_) ?_
  · refine .look (looks_isAt _) fun ends => .literal (fun l here => here) fun literal => ?_
    refine .given ?_ ((Covers.of_pass _).append_right _)
    rw [List.append_assoc, List.append_assoc]
    refine .upon _ (.add rfl (.must rfl (.must rfl .nil)) rfl rfl) fun span => ?_
    cases ends <;> exact .pure (.snoc ..)
  · refine .steady (Steady.moving.expect _) fun _ => .pure ?_
    rw [List.append_assoc]
    exact .init _ _

theorem lays_template (hsub : LaysPhrases x sub) (literal : ∀ l, at_ l → IsLiteral l.kind) :
    LaysAt x ready at_ [] (template sub) (single .firm) := by
  refine .isAt (lays_takeLiteral fun l here => literal l here.1) ?_
  refine .mark fun start => .literal (fun l here => literal l here.1.1) fun head => ?_
  refine .call (Q := fun (spans : List Child) => several .firm spans.reverse)
    (.repeating (I := fun spans => several .firm spans.reverse) (lays_templateSpanStep hsub) [])
    fun spans => ?_
  exact .add rfl (.must rfl (.several rfl _)) rfl rfl

/-! ### Brackets -/

theorem lays_parenthesized (hsub : LaysPhrases x sub) (notEnd : ∀ l, at_ l → NotEnd l) :
    LaysAt x ready at_ [] (parenthesized sub) (single .firm) := by
  refine .mark fun start => .advance (fun l here => notEnd l here.1) ?_
  refine .call (.within _ (lays_expression hsub)) fun value => .expectMark ?_
  exact .add rfl (.must rfl .nil) rfl rfl

theorem lays_spreadOrAssignment (hsub : LaysPhrases x sub) (shape : k.shape? = some .spread)
    (plain : (k != .variableDeclarationList) = true) :
    LaysAt x true at_ [] (spreadOrAssignment sub k) (single .firm) := by
  refine .isAt ?_ (hsub .assignment).any
  refine .mark fun start => .advance (fun l here => notEnd_mark here.1.2) ?_
  refine (lays_assignmentOrReport hsub).call fun value => ?_
  exact .add shape (.must rfl .nil) rfl plain

theorem lays_arrayStep (hsub : LaysPhrases x sub) (elements : List Child) :
    Lays x true (several .there elements.reverse) (arrayStep sub elements)
      fun answer => several .there answer.value.reverse := by
  refine .kind fun k _ => decided (fun _ => .pure (.refl _)) fun _ =>
    decided (fun comma => ?_) fun _ => ?_
  · exact .call (lays_hole fun l here => here.2.trans comma) fun node => .pure (.snoc ..)
  refine .call ((lays_spreadOrAssignment hsub rfl rfl).imp fun element => .there .nil)
    fun element => ?_
  refine decided (fun _ => .steady (Steady.moving.reportHere _) fun _ => .pure (.init _ _)) fun _ => ?_
  refine .steady (Steady.moving.accept _) fun comma => ?_
  exact decided (fun _ => .pure (.snoc ..)) fun _ => .pure (.snoc ..)

theorem lays_arrayLiteral (hsub : LaysPhrases x sub) (notEnd : ∀ l, at_ l → NotEnd l) :
    LaysAt x ready at_ [] (arrayLiteral sub) (single .firm) := by
  refine .mark fun start => .advance (fun l here => notEnd l here.1) ?_
  refine .call (Q := fun (elements : List Child) => several .there elements.reverse)
    (.within _ (.repeating (I := fun elements => several .there elements.reverse)
      (lays_arrayStep hsub) [])) fun elements => .steady (Steady.moving.expect _) fun _ => ?_
  exact .add rfl (.several rfl _) rfl rfl

/-! ### Objects -/

theorem lays_shorthandProperty (hsub : LaysPhrases x sub) {name : Child} :
    LaysAt x ready at_ [.mark start false, .piece name .firm] (shorthandProperty sub start name)
      (single .firm) := by
  refine .acceptMark ?_ (.without (g := .loose) rfl fun value => ?_)
  · refine (lays_assignmentOrReport hsub).call fun value => ?_
    exact .add rfl (.must rfl (.must rfl .nil)) rfl rfl
  · exact .add rfl (.must rfl (.may .nil)) rfl rfl

theorem lays_namedObjectMember (hsub : LaysPhrases x sub) (marks : MethodMarks) (shorthand : Bool)
    {name : Child} :
    LaysAt x ready at_ [.mark start false, .piece name .firm]
      (namedObjectMember sub start marks shorthand name) (single .firm) := by
  refine .isAt ?_ (.acceptMark ?_ ?_)
  · exact lays_method hsub (shape_method marks rfl) (plain_method marks rfl) none marks
  · refine (lays_assignmentOrReport hsub).call fun value => ?_
    exact .add rfl (.must rfl (.must rfl .nil)) rfl rfl
  · rw [if_neg Bool.false_ne_true]
    refine decided (fun _ => lays_shorthandProperty hsub) fun _ => ?_
    exact .expectMissing (fun l here => here.2) (.pure (.tail _ (.lost .nil)))

theorem lays_objectMember (hsub : LaysPhrases x sub) :
    LaysAt x true at_ [] (objectMember sub) (single .firm) := by
  refine .mark fun start => .isAt ?_ (.steady steady_methodMarks fun marks => ?_)
  · exact (lays_spreadOrAssignment hsub rfl rfl).given (.nothing _)
  extract_lets join
  have joined (shorthand : Bool) : Lays x true [.mark start false] (join shorthand)
      (single .firm) := by
    refine (lays_propertyName hsub).call fun name => decided (fun none_ => ?_) fun _ => ?_
    · exact .steady (Steady.moving.reportHere _) fun _ => .pureNone none_ (.drop (.refl _))
    · exact lays_namedObjectMember hsub marks shorthand
  exact merged <| .look (either (Looks.closed.pure _) looks_atIdentifier) fun shorthand =>
    (joined shorthand).any

theorem lays_objectMemberStep (hsub : LaysPhrases x sub) (members : List Child) :
    Lays x true (several .firm members.reverse) (objectMemberStep sub members)
      fun answer => several .firm answer.value.reverse := by
  refine .look looks_kind fun k => decided (fun _ => .pure (.refl _)) fun _ => ?_
  refine (lays_objectMember hsub).call fun member => ?_
  refine decided (fun _ => .pure (.init _ _)) fun _ =>
    .steady (Steady.moving.accept _) fun comma => ?_
  exact decided (fun _ => .pure (.snoc ..)) fun _ => .pure (.snoc ..)

theorem lays_objectLiteral (hsub : LaysPhrases x sub) :
    LaysAt x ready at_ [] (objectLiteral sub) (single .firm) := by
  refine .markCursor fun brace => .expectMark ?_
  refine .call (Q := fun (members : List Child) => several .firm members.reverse)
    (.within _ (.repeating (I := fun members => several .firm members.reverse)
      (lays_objectMemberStep hsub) [])) fun members => .steady (Steady.moving.expect _) fun _ => ?_
  exact .look (looks_spansLines _) fun multiLine => .add rfl (.several rfl _) rfl rfl

/-! ### All together -/

theorem lays_importExpression (notEnd : ∀ l, at_ l → NotEnd l) :
    LaysAt x ready at_ [] importExpression (single .firm) := by
  refine .mark fun start => .stop fun stop => ?_
  refine .advanceToken (fun l here => notEnd l here.1.1) (fun l here => here.1.2)
    (fun l here => here.2) (.acceptMark ?_ ?_)
  · refine lays_identifierName.call fun name => ?_
    exact .add rfl (.skip rfl (.must rfl .nil)) rfl rfl
  · refine .look (looks_isAt _) fun group => ?_
    refine mergedUnless <|
      .steady (either (Steady.closed.pure _) (Steady.moving.expect _)) fun _ => ?_
    exact (LaysAt.addToken rfl).given (.drop (.refl _))

theorem lays_regularExpression
    (slash : ∀ l, at_ l → l.kind = .mark .slash ∨ l.kind = .mark .slashEquals) :
    LaysAt x ready at_ [] regularExpression (single .firm) := by
  have rescanned (l : Lexer) (here : l.kind = .mark .slash ∨ l.kind = .mark .slashEquals) :
      l.rescanSlash.first = l.first ∧ IsLiteral l.rescanSlash.kind := by
    unfold Lexer.rescanSlash
    rcases here with slash | slashEquals
    · simp [slash, IsLiteral]
    · simp [slashEquals, IsLiteral]
  exact .rescan (fun l => IsLiteral l.kind)
    (fun l here sits => ⟨sits.rescanSlash, (rescanned l (slash l here)).1⟩)
    (fun l here => (rescanned l (slash l here)).2) (lays_takeLiteral fun l here => here)

theorem lays_nameOrReport : LaysAt x ready at_ [] nameOrReport (single .firm) :=
  .look looks_atIdentifier fun _ => decided (fun _ => lays_identifier) fun _ => lays_reportNone

theorem lays_primary (hsub : LaysPhrases x sub) :
    LaysAt x ready at_ [] (primary sub) (single .firm) := by
  have word (w : Keyword) (bare : NodeKind.shape? (.token (.word w)) = none) :
      LaysAt x ready (fun l => at_ l ∧ l.kind = .word w) [] takeToken (single .firm) :=
    lays_takeToken (fun l here => here.2 ▸ bare) fun l here => notEnd_word here.2
  refine .kind fun k _ => ?_
  split
  · exact lays_takeLiteral fun l here => ⟨_, here.2⟩
  · exact lays_takeLiteral fun l here => ⟨_, here.2⟩
  · exact lays_takeLiteral fun l here => ⟨_, here.2⟩
  · exact lays_template hsub fun l here => ⟨_, here.2⟩
  · exact lays_template hsub fun l here => ⟨_, here.2⟩
  · exact word _ rfl
  · exact word _ rfl
  · exact word _ rfl
  · exact word _ rfl
  · exact word _ rfl
  · exact lays_parenthesized hsub fun l here => notEnd_mark here.2
  · exact lays_arrayLiteral hsub fun l here => notEnd_mark here.2
  · exact lays_objectLiteral hsub
  · exact lays_functionExpression hsub
  · refine .look looks_asyncFunctionAhead fun found => ?_
    exact decided (fun _ => lays_functionExpression hsub) fun _ => lays_nameOrReport
  · exact lays_classOf hsub true (fun l here => here.2) rfl (by simp)
  · exact lays_importExpression fun l here => notEnd_word here.2
  · exact lays_regularExpression fun l here => .inl here.2
  · exact lays_regularExpression fun l here => .inr here.2
  · exact lays_identifierName
  · exact lays_nameOrReport

end PathGuard.Parser
