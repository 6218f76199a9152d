import PathGuard.Grammar.Member
import PathGuard.Proofs.Span.Primary
/-!
# Where members and calls lie

A link begins where the whole expression does, so that place is held while links are read.
-/

namespace PathGuard.Parser

open Item

variable {x : Setting} {ready : Bool} {at_ : Lexer → Prop} {sub : PhraseParser} {flags start : Nat}
  {moved questionDot : Bool} {object : Child}

/-! ### Arguments -/

theorem lays_argumentStep (hsub : LaysPhrases x sub) (acc : List Child × Bool) :
    Lays x true (several .firm acc.1.reverse) (argumentStep sub acc)
      fun answer => several .firm answer.value.1.reverse := by
  refine .look looks_kind fun k => decided (fun _ => .pure (.refl _)) fun _ => ?_
  refine (lays_spreadOrAssignment hsub rfl rfl).call fun argument => ?_
  refine decided (fun _ => .steady (Steady.moving.reportHere _) fun _ => .pure (.init _ _)) fun _ => ?_
  refine .steady (Steady.moving.accept _) fun comma => decided (fun _ => ?_) fun _ =>
    .pure (.snoc ..)
  exact .look (looks_isAt _) fun last => .pure (.snoc ..)

theorem lays_argumentList (hsub : LaysPhrases x sub) :
    LaysAt x ready at_ [] (argumentList sub) fun arguments => several .firm arguments.nodes := by
  refine .look looks_tokenStart fun start => .expectMark ?_
  refine .bind (Q := fun (acc : List Child × Bool) => several .firm acc.1.reverse)
    (.within _ (.repeating (I := fun acc => several .firm acc.1.reverse)
      (lays_argumentStep hsub) ([], false))) fun acc => .steady (Steady.moving.expect _) fun _ => ?_
  exact .rowFrom fun _ => .refl _

/-! ### Links -/

/-- An expression that links may follow, and where it begins. -/
def linked (start : Nat) (object : Child) : List Item := [.mark start false, .piece object .firm]

theorem covers_linked : Covers [.mark start moved, .piece object .firm] (linked start object) :=
  .unmoved Bool.noConfusion (.refl _)

theorem lays_propertyAccess :
    LaysAt x ready at_ [.mark start moved, .piece object .firm]
      (propertyAccess flags start object questionDot) (linked start) := by
  refine lays_identifierName.call fun name => ?_
  exact (LaysAt.addKeep rfl (.must rfl (.must rfl .nil)) (Bool.or_true _) rfl).imp
    fun _ => covers_linked

theorem lays_elementAccess (hsub : LaysPhrases x sub) :
    LaysAt x ready at_ [.mark start moved, .piece object .firm]
      (elementAccess sub flags start object questionDot) (linked start) := by
  refine .expectMark (.call (.within _ (lays_expression hsub)) fun key => .expectMark ?_)
  exact (LaysAt.addKeep rfl (.must rfl (.must rfl .nil)) rfl rfl).imp fun _ => covers_linked

theorem lays_call (hsub : LaysPhrases x sub) :
    LaysAt x ready at_ [.mark start moved, .piece object .firm] (call sub flags start object)
      (linked start) := by
  refine (lays_argumentList hsub).call fun arguments => ?_
  exact (LaysAt.addKeep rfl (.must rfl (.several rfl _)) (Bool.or_true _) rfl).imp
    fun _ => covers_linked

theorem lays_optionalLink (hsub : LaysPhrases x sub) :
    LaysAt x ready at_ [.mark start moved, .piece object .firm] (optionalLink sub start object)
      (linked start) := by
  refine .look looks_kind fun k => ?_
  split
  · exact lays_elementAccess hsub
  · exact lays_call hsub
  · exact lays_propertyAccess

theorem lays_taggedTemplate (hsub : LaysPhrases x sub) (chained : Bool)
    (literal : ∀ l, at_ l → IsLiteral l.kind) :
    LaysAt x ready at_ (linked start object) (taggedTemplate sub chained flags start object)
      (linked start) := by
  unfold taggedTemplate
  extract_lets join
  have joined (u : Unit) : LaysAt x ready at_ (linked start object) (join u) (linked start) := by
    refine (lays_template hsub literal).call fun text => ?_
    exact (LaysAt.addKeep rfl (.must rfl (.must rfl .nil)) rfl rfl).imp fun _ => covers_linked
  exact decided (fun _ => .report ((joined ()).given (.init _ _))) fun _ => joined ()

theorem lays_linkStep (hsub : LaysPhrases x sub) (allowCalls : Bool) (acc : Child × Bool) :
    Lays x ready (linked start acc.1) (linkStep sub start allowCalls acc)
      fun answer => linked start answer.value.1 := by
  obtain ⟨object, chained⟩ := acc
  refine .kind fun k _ => ?_
  split
  · exact .advance (fun l here => notEnd_mark here.2) (.bind lays_propertyAccess fun _ => .pure (.refl _))
  · exact .bind (lays_elementAccess hsub) fun _ => .pure (.refl _)
  · refine decided (fun _ => ?_) fun _ => .pure (.refl _)
    exact .bind (lays_call hsub) fun _ => .pure (.refl _)
  · refine decided (fun _ => ?_) fun _ => .pure (.refl _)
    refine .advance (fun l here => notEnd_mark here.2) ?_
    exact .bind (lays_optionalLink hsub) fun _ => .pure (.refl _)
  · exact .bind (lays_taggedTemplate hsub chained fun l here => ⟨_, here.2⟩) fun _ => .pure (.refl _)
  · exact .bind (lays_taggedTemplate hsub chained fun l here => ⟨_, here.2⟩) fun _ => .pure (.refl _)
  · exact .pure (.refl _)

theorem lays_links (hsub : LaysPhrases x sub) (allowCalls : Bool) :
    LaysAt x ready at_ (linked start object) (links sub start object allowCalls)
      (single .firm) := by
  exact .bind (.repeating (I := fun acc => linked start acc.1) (lays_linkStep hsub allowCalls)
    (object, false)) fun acc => .pure (.drop (.refl _))

/-! ### What the links follow -/

theorem lays_callee (hsub : LaysPhrases x sub) :
    LaysAt x true at_ [] (callee sub) (single .firm) := by
  have joined (start : Nat) (object : Child) : Lays x true (linked start object)
      (if object.isSome then links sub start object false
        else do
          reportHere .expressionExpected
          return none) (single .firm) :=
    decided (fun _ => lays_links hsub false) fun _ => .report (.pure (.tail _ (.lost .nil)))
  refine .mark fun start => .isAt ?_ ?_
  · exact ((hsub .newExpression).at' fun l here => here.2).call (joined start)
  · exact (lays_primary hsub).call (joined start)

theorem lays_newExpression (hsub : LaysPhrases x sub) (notEnd : ∀ l, at_ l → NotEnd l) :
    LaysAt x ready at_ [] (newExpression sub) (single .firm) := by
  refine .nested (.mark fun start => .advance (fun l here => notEnd l here.1) ?_) (.lost .nil)
  refine .acceptMark ?_ ((lays_callee hsub).call fun object => .look (looks_isAt _) fun group => ?_)
  · refine lays_identifierName.call fun name => ?_
    exact .add rfl (.must rfl .nil) rfl rfl
  · extract_lets join
    have joined (arguments : Option NodeList) :
        Lays x true (.mark start true :: (single .firm object ++
          several .firm (Record.optionalNodes arguments))) (join arguments) (single .firm) :=
      .add rfl (.must rfl (.several rfl _)) rfl rfl
    refine decided (fun _ => ?_) fun _ => atOnce (joined none).any
    refine .call (Q := fun arguments => several .firm (Record.optionalNodes arguments)) ?_ joined
    exact mapped (.bind (lays_argumentList hsub) fun _ => .pure (.refl _))

theorem lays_leftHandSide (hsub : LaysPhrases x sub) :
    LaysAt x ready at_ [] (leftHandSide sub) (single .firm) := by
  have joined (start : Nat) (object : Child) : Lays x ready (linked start object)
      (if object.isNone then pure none else links sub start object true) (single .firm) :=
    decided (fun none_ => .pureNone none_ (.drop (.refl _))) fun _ => lays_links hsub true
  refine .mark fun start => .isAt ?_ ?_
  · exact (lays_newExpression hsub fun l here => notEnd_word here.2).call (joined start)
  · exact (lays_primary hsub).call (joined start)

end PathGuard.Parser
