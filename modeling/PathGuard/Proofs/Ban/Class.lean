import PathGuard.Grammar.Class
import PathGuard.Proofs.Ban.Pattern
import PathGuard.Proofs.Grammar.Block
/-!
# Blocks, functions and classes under the ban on `in`

The braces of a function lift the ban with all of its context. The braces of a class do not: a field
and a static block get a context of their own, but the ban is handed on to them.
-/

namespace PathGuard.Parser

open Spot

variable {sub : PhraseParser} {start : Nat} {k : NodeKind}

/-! ### Statements in a row -/

theorem minds_statementStep (mind : Minding sub) (isEnd : TokenKind → Bool)
    (statements : List Child) :
    Minds (constructs statements) (statementStep sub isEnd statements)
      fun answer => constructs answer.value := by
  refine .neutral neutral_kind fun k => decided (fun _ => .pure (.refl _)) fun _ => ?_
  refine .neutral neutral_tokenStart fun start => mind.statement.call fun statement => ?_
  have done : Minds (constructs statements ++ construct statement)
      (pure (ForInStep.yield (if statement.isSome then statement :: statements else statements)))
      fun answer => constructs answer.value := by
    cases statement with
    | some i => exact .pure .push
    | none => exact .pure (.drop rfl)
  refine .neutral neutral_kind fun k' => .neutral neutral_tokenStart fun start' => ?_
  refine decided (fun _ => ?_) fun _ => done
  exact .neutral (Neutral.moving.reportHere _) fun _ => .neutral Neutral.moving.advance fun _ =>
    done

theorem minds_statementList (mind : Minding sub) (isEnd : TokenKind → Bool) :
    Minds [] (statementList sub isEnd) fun list => constructs list.nodes := by
  refine .neutral neutral_tokenStart fun start => ?_
  exact (Minds.row (minds_statementStep mind isEnd)).call fun statements => .rowFrom

theorem minds_blockFrom (mind : Minding sub) (shape : k.shape? = some .block) :
    Minds [] (blockFrom sub k start) construct := by
  refine .neutral neutral_tokenCursor fun brace => .neutral (Neutral.moving.expect _) fun _ => ?_
  refine (minds_statementList mind _).call fun statements =>
    .neutral (Neutral.moving.expect _) fun _ => ?_
  refine .neutral (neutral_spansLines _) fun multiLine => .add shape nofun rfl fun _ => ?_
  rw [List.nil_append, constructs_child]
  rfl

theorem minds_block (mind : Minding sub) : Minds [] (block sub) construct :=
  .neutral neutral_tokenStart fun _ => minds_blockFrom mind rfl

/-! ### Functions -/

theorem neutral_signatureAndBody (mind : Minding sub) (isAsync isGenerator : Bool) :
    Neutral (signatureAndBody sub isAsync isGenerator) := by
  refine .within (fun _ => rfl) ((keeps_parameterList mind).bind fun parameters => ?_)
  exact (minds_block mind).keeps.bind fun body => .pure _

theorem sheltered_functionOf (mind : Minding sub) {isAsync isGenerator : Bool} {name : Child}
    (modifiers : Option NodeList) (shape : k.shape? = some .function) :
    Sheltered (do
      let (parameters, body) ← signatureAndBody sub isAsync isGenerator
      add k start (.function modifiers isAsync isGenerator name parameters body false)) :=
  .bind (neutral_signatureAndBody mind _ _) fun _ => .add shape rfl fun _ => rfl

theorem sheltered_functionDeclaration (mind : Minding sub) (nameOptional : Bool) :
    Sheltered (functionDeclaration sub nameOptional) := by
  refine .bind neutral_tokenStart fun start => .bind (Neutral.moving.accept _) fun isAsync => ?_
  refine .bind (Neutral.moving.expect _) fun _ =>
    .bind (Neutral.moving.accept _) fun isGenerator => ?_
  refine .bind neutral_atIdentifier fun found => ?_
  extract_lets join nameless
  have joined (name : Child) : Sheltered (join name) := sheltered_functionOf mind none rfl
  refine either (.bind sheltered_identifier.neutral joined) ?_
  exact either (joined none) (.bind (Neutral.moving.reportHere _) fun _ => joined none)

theorem sheltered_functionExpression (mind : Minding sub) : Sheltered (functionExpression sub) := by
  refine .bind neutral_tokenStart fun start => .bind (Neutral.moving.accept _) fun isAsync => ?_
  refine .bind (Neutral.moving.expect _) fun _ =>
    .bind (Neutral.moving.accept _) fun isGenerator => ?_
  refine .bind (.within (fun _ => rfl) neutral_atIdentifier.keeps) fun named => ?_
  refine either (.bind (sheltered_takeIdentifier _).neutral fun name => ?_) ?_
  · exact sheltered_functionOf mind none rfl
  · exact sheltered_functionOf mind none rfl

/-! ### Methods -/

theorem neutral_atMemberMark : Neutral atMemberMark := by
  refine neutral_peek.bind fun next => (Neutral.moving.isAt _).bind fun async => ?_
  exact either (.pure _) (.pure _)

theorem neutral_methodMarks : Neutral methodMarks :=
  Neutral.moving.methodMarks neutral_atMemberMark

theorem sheltered_method (mind : Minding sub) {name : Child} (shape : k.shape? = some .function)
    (modifiers : Option NodeList) (marks : MethodMarks) :
    Sheltered (method sub k start modifiers marks name) := sheltered_functionOf mind modifiers shape

/-! ### Members -/

theorem minds_staticBlock (mind : Minding sub) : Minds [] (staticBlock sub start) construct :=
  .neutral Neutral.moving.advance fun _ => .within (fun _ => rfl) (minds_blockFrom mind rfl)

theorem minds_field (mind : Minding sub) (modifiers : Option NodeList) (marks : MethodMarks)
    (name : Child) : Minds [] (field sub start modifiers marks name) construct := by
  unfold field
  refine mergedWhen <| .neutral (either (Neutral.moving.expect _) (.pure _)) fun _ => ?_
  refine .neutral (Neutral.moving.accept _) fun found =>
    merged <| .call (Q := value) ?_ fun value => ?_
  · exact either (.within (fun _ => rfl) (minds_assignmentOrReport mind)) (.pure (.of_none _))
  exact .neutral Neutral.moving.endStatement fun _ => .add rfl nofun rfl fun _ => rfl

theorem neutral_atConstructorName : Neutral atConstructorName := by
  refine neutral_kind.bind fun k => ?_
  split
  · exact neutral_tokenValue.bind fun name => .pure _
  · exact neutral_tokenValue.bind fun name => .pure _
  · exact .pure false

theorem minds_namedMember (mind : Minding sub) (modifiers : List Child) :
    Minds [] (namedMember sub start modifiers) construct := by
  refine .neutral neutral_methodMarks fun marks => ?_
  refine merged <| .neutral (either neutral_atConstructorName (.pure _)) fun isConstructor => ?_
  refine .neutral (sheltered_propertyName mind).neutral fun name => ?_
  refine decided (fun _ => .pure (.of_none _)) fun _ =>
    .neutral (Neutral.moving.isAt _) fun found => ?_
  refine decided (fun _ => ?_) fun _ => minds_field mind _ marks name
  refine (sheltered_method mind (shape_method marks ?_) _ marks).minds.construct
  cases isConstructor <;> rfl

theorem minds_classMember (mind : Minding sub) : Minds [] (classMember sub) construct := by
  refine .neutral neutral_tokenStart fun start => .neutral (Neutral.moving.isAt _) fun static => ?_
  refine merged <| .neutral (either neutral_atMemberMark (.pure _)) fun isStatic => ?_
  beta_reduce
  refine decided (fun _ => .neutral neutral_peek fun next => ?_) fun _ => minds_namedMember mind []
  refine decided (fun _ => minds_staticBlock mind) fun _ => .neutral neutral_tokenEnd fun stop => ?_
  refine .neutral (neutral_addToken _ _ _) fun modifier =>
    .neutral Neutral.moving.advance fun _ => ?_
  exact minds_namedMember mind [modifier]

theorem minds_memberStep (mind : Minding sub) (members : List Child) :
    Minds (constructs members) (memberStep sub members)
      fun answer => constructs answer.value := by
  refine .neutral neutral_kind fun k => decided (fun _ => .pure (.refl _)) fun _ => ?_
  refine .neutral (Neutral.moving.accept _) fun found =>
    decided (fun _ => .pure (.refl _)) fun _ => ?_
  refine .neutral neutral_tokenStart fun start => (minds_classMember mind).call fun member => ?_
  cases member with
  | some i => exact .pure .push
  | none =>
    refine .neutral neutral_tokenStart fun start' => mergedWhen ?_
    exact .neutral (either Neutral.moving.advance (.pure _)) fun _ => .pure (.drop rfl)

/-! ### Classes -/

theorem minds_heritage (mind : Minding sub) : Minds [] (heritage sub) value := by
  refine .neutral (Neutral.moving.accept _) fun found => decided (fun _ => ?_) fun _ =>
    .pure (.of_none _)
  refine Minds.call (Q := value) (mind .leftHandSide) fun parent => ?_
  exact mergedWhen <| .neutral (either (Neutral.moving.reportHere _) (.pure _)) fun _ =>
    .pure (.refl _)

theorem minds_classOf (mind : Minding sub) (nameOptional : Bool)
    (shape : k.shape? = some .classLike) (noBlock : k ≠ .block) :
    Minds [] (classOf sub k nameOptional) value := by
  refine .neutral neutral_tokenStart fun start => .neutral (Neutral.moving.expect _) fun _ => ?_
  refine .neutral neutral_atIdentifier fun found => ?_
  extract_lets join nameless
  have joined (name : Child) : Minds [] (join name) value := by
    refine (minds_heritage mind).call fun parent => .neutral neutral_tokenStart fun start' => ?_
    refine .neutral (Neutral.moving.expect _) fun _ => ?_
    refine (Minds.row (minds_memberStep mind)).call fun members => ?_
    refine .neutral (Neutral.moving.expect _) fun _ => .upon .rowFrom fun list => ?_
    refine .add shape (fun _ => noBlock) rfl fun _ => ?_
    rw [List.nil_append, List.map_append, constructs_child]
    rfl
  refine either (.neutral sheltered_identifier.neutral joined) (either ?_ (joined none))
  exact .neutral (Neutral.moving.reportHere _) fun _ => joined none

end PathGuard.Parser
