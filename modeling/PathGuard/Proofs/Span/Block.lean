import PathGuard.Proofs.Grammar.Block
import PathGuard.Proofs.Span.Pattern
/-!
# Where blocks and functions lie
-/

namespace PathGuard.Parser

open Item

variable {x : Setting} {ready : Bool} {at_ : Lexer → Prop} {sub : PhraseParser} {start : Nat}
  {moved : Bool} {k : NodeKind} {g : Grade} {name : Child}

/-! ### Statements in a row -/

theorem lays_statementStep (hsub : LaysPhrases x sub) (isEnd : TokenKind → Bool)
    (statements : List Child) :
    Lays x true (several .firm statements.reverse) (statementStep sub isEnd statements)
      fun answer => several .firm answer.value.reverse := by
  refine .look looks_kind fun k => decided (fun _ => .pure (.refl _)) fun _ => ?_
  refine .look looks_tokenStart fun start => (hsub .statement).any.call fun statement => ?_
  have kept : Covers (several .firm statements.reverse ++ single .firm statement)
      (several .firm
        (if statement.isSome then statement :: statements else statements).reverse) := by
    split
    · exact .snoc ..
    · exact .init _ _
  refine .look looks_kind fun k' => .look looks_tokenStart fun start' => ?_
  refine decided (fun _ => ?_) fun _ => .pure kept
  exact .steady (Steady.moving.reportHere _) fun _ => .steady Steady.moving.advance fun _ =>
    .pure kept

theorem lays_statementList (hsub : LaysPhrases x sub) (isEnd : TokenKind → Bool) :
    LaysAt x true at_ [] (statementList sub isEnd) fun statements =>
      several .firm statements.nodes := by
  refine .look looks_tokenStart fun start => ?_
  refine .bind (.repeating (I := fun statements => several .firm statements.reverse)
    (lays_statementStep hsub isEnd) []) fun statements => ?_
  exact .rowFrom fun _ => .refl _

theorem lays_blockFrom (hsub : LaysPhrases x sub) (shape : k.shape? = some .block)
    (plain : (k != .variableDeclarationList) = true) :
    LaysAt x ready at_ [.mark start moved] (blockFrom sub k start) (single .firm) := by
  refine .look looks_tokenCursor fun brace => .expectMark ?_
  refine (lays_statementList hsub _).call fun statements =>
    .steady (Steady.moving.expect _) fun _ => ?_
  refine .look (looks_spansLines _) fun multiLine => ?_
  exact .add shape (.several rfl _) rfl plain

theorem lays_block (hsub : LaysPhrases x sub) :
    LaysAt x ready at_ [] (block sub) (single .firm) :=
  .mark fun _ => lays_blockFrom hsub rfl rfl

/-! ### Functions -/

theorem lays_signatureAndBody (hsub : LaysPhrases x sub) (isAsync isGenerator : Bool) :
    LaysAt x ready at_ [] (signatureAndBody sub isAsync isGenerator) fun signature =>
      several .firm signature.1.nodes ++ single .firm signature.2 := by
  refine .within _ ((lays_parameterList hsub).call fun parameters => ?_)
  exact (lays_block hsub).call fun body => .pure (.refl _)

theorem fills_signature {modifiers : Option NodeList} {isAsync isGenerator isArrow : Bool}
    {body : Child} {parameters : NodeList} :
    Item.Fills (several .firm (Record.optionalNodes modifiers) ++ single g name ++
        (several .firm parameters.nodes ++ single .firm body))
      ((Record.function modifiers isAsync isGenerator name parameters body isArrow).places k) := by
  have front : Item.Fills (several .firm (Record.optionalNodes modifiers))
      (Record.rowPlaces (Record.optionalNodes modifiers)) := .several rfl _
  have behind : Item.Fills (several .firm parameters.nodes ++ single .firm body)
      (Record.rowPlaces parameters.nodes ++ [(body, true)]) :=
    .append (.several rfl _) (.must rfl .nil)
  rw [List.append_assoc]
  exact front.append (.may behind)

theorem lays_functionOf (hsub : LaysPhrases x sub) {isAsync isGenerator : Bool}
    (modifiers : Option NodeList) (shape : k.shape? = some .function)
    (plain : (k != .variableDeclarationList) = true) :
    LaysAt x ready at_
      (.mark start moved :: (several .firm (Record.optionalNodes modifiers) ++ single g name))
      (do
        let (parameters, body) ← signatureAndBody sub isAsync isGenerator
        add k start (.function modifiers isAsync isGenerator name parameters body false))
      (single .firm) := by
  refine (lays_signatureAndBody hsub _ _).call fun signature => ?_
  refine .add shape fills_signature ?_ plain
  simp [single, isFirm, Grade.firm]

theorem lays_functionDeclaration (hsub : LaysPhrases x sub) (nameOptional : Bool) :
    LaysAt x ready at_ [] (functionDeclaration sub nameOptional) (single .firm) := by
  refine .mark fun start => .steady (Steady.moving.accept _) fun isAsync => .expectWord ?_
  refine .steady (Steady.moving.accept _) fun isGenerator =>
    .look looks_atIdentifier fun found => ?_
  extract_lets join
  have joined (name : Child) :
      Lays x true (.mark start true :: single .loose name) (join name) (single .firm) :=
    lays_functionOf hsub none rfl rfl
  have named : Lays x true [] identifier (single .loose) :=
    lays_identifier.imp fun _ => .loose .nil
  refine decided (fun _ => named.any.call joined) fun _ => ?_
  exact mergedUnless <| .steady (either (Steady.closed.pure _) (Steady.moving.reportHere _)) fun _ =>
    .without rfl joined

theorem notEnd_of_within (change : Context → Context) (s : ParserState)
    (name : (within change atIdentifier s).1 = true) : NotEnd s.lexer :=
  notEnd_of_atIdentifier { s with context := change s.context } name

theorem lays_functionExpression (hsub : LaysPhrases x sub) :
    LaysAt x ready at_ [] (functionExpression sub) (single .firm) := by
  refine .mark fun start => .steady (Steady.moving.accept _) fun isAsync => .expectWord ?_
  refine .steady (Steady.moving.accept _) fun isGenerator => ?_
  have joined (name : Child) : Lays x true (.mark start true :: single .loose name)
      (do
        let (parameters, body) ← signatureAndBody sub isAsync isGenerator
        add .functionExpression start
          (.function none isAsync isGenerator name parameters body false)) (single .firm) :=
    lays_functionOf hsub none rfl rfl
  refine .ask (looks_within looks_atIdentifier _) (notEnd_of_within _) ?_ (.without rfl joined)
  refine .call (Q := single .loose) ?_ joined
  exact (lays_takeIdentifier rfl fun l here => here.2).imp fun _ => .loose .nil

/-! ### Methods -/

theorem steady_methodMarks : Steady x.text methodMarks :=
  Steady.moving.methodMarks looks_atMemberMark.steady

theorem lays_method (hsub : LaysPhrases x sub) (shape : k.shape? = some .function)
    (plain : (k != .variableDeclarationList) = true) (modifiers : Option NodeList)
    (marks : MethodMarks) :
    LaysAt x ready at_
      (.mark start moved :: (several .firm (Record.optionalNodes modifiers) ++ single g name))
      (method sub k start modifiers marks name) (single .firm) :=
  lays_functionOf hsub modifiers shape plain

end PathGuard.Parser
