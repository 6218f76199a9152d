import PathGuard.Grammar.Member
import PathGuard.Proofs.Ban.Class
/-!
# Primary expressions and their links under the ban on `in`

Every primary expression lifts the ban for what stands in it, except for a class. So do the brackets
of the links behind it.
-/

namespace PathGuard.Parser

open Spot

variable {sub : PhraseParser} {start : Nat} {k : NodeKind}

/-! ### Templates -/

theorem neutral_inBrackets (mind : Minding sub) : Neutral (within .allowIn (expression sub)) :=
  .within (fun _ => rfl) (minds_expression mind).keeps

theorem neutral_templateSpanStep (mind : Minding sub) (spans : List Child) :
    Neutral (templateSpanStep sub spans) := by
  refine neutral_tokenStart.bind fun start => (neutral_inBrackets mind).bind fun value => ?_
  refine (Neutral.moving.isAt _).bind fun found => either ?_ ?_
  case refine_2 => exact (Neutral.moving.expect _).bind fun _ => .pure _
  refine (neutral_rescan _ _).bind fun _ => (Neutral.moving.isAt _).bind fun ends => ?_
  refine sheltered_takeLiteral.neutral.bind fun literal => (neutral_add _ _ _).bind fun span => ?_
  exact .pure _

theorem sheltered_template (mind : Minding sub) : Sheltered (template sub) := by
  refine .bind (Neutral.moving.isAt _) fun whole => either sheltered_takeLiteral ?_
  refine .bind neutral_tokenStart fun start => .bind sheltered_takeLiteral.neutral fun head => ?_
  have spans : Neutral (repeating (templateSpanStep sub) []) :=
    Neutral.closed.repeating neutral_textLeft (neutral_templateSpanStep mind) []
  refine .bind spans fun spans => ?_
  exact .add rfl rfl fun _ => rfl

/-! ### Brackets -/

theorem sheltered_parenthesized (mind : Minding sub) : Sheltered (parenthesized sub) := by
  refine .bind neutral_tokenStart fun start => .bind Neutral.moving.advance fun _ => ?_
  refine .bind (neutral_inBrackets mind) fun value => .bind (Neutral.moving.expect _) fun _ => ?_
  exact .add rfl rfl fun _ => rfl

theorem keeps_spreadOrAssignment (mind : Minding sub) : Keeps (spreadOrAssignment sub k) := by
  refine (Neutral.moving.isAt _).keeps.bind fun dots => either ?_ mind.assignment.keeps
  refine neutral_tokenStart.keeps.bind fun start => Neutral.moving.advance.keeps.bind fun _ => ?_
  exact (minds_assignmentOrReport mind).keeps.bind fun value => (neutral_add _ _ _).keeps

theorem keeps_arrayStep (mind : Minding sub) (elements : List Child) :
    Keeps (arrayStep sub elements) := by
  refine neutral_kind.keeps.bind fun k => either (.pure _) (either ?_ ?_)
  · exact sheltered_hole.neutral.keeps.bind fun node => .pure _
  · refine (keeps_spreadOrAssignment mind).bind fun element => either ?_ ?_
    · exact (Neutral.moving.reportHere _).keeps.bind fun _ => .pure _
    · exact (Neutral.moving.accept _).keeps.bind fun comma => either (.pure _) (.pure _)

theorem sheltered_arrayLiteral (mind : Minding sub) : Sheltered (arrayLiteral sub) := by
  refine .bind neutral_tokenStart fun start => .bind Neutral.moving.advance fun _ => ?_
  have elements : Keeps (repeating (arrayStep sub) []) :=
    Keeps.closed.repeating neutral_textLeft.keeps (keeps_arrayStep mind) []
  refine .bind (.within (fun _ => rfl) elements) fun elements => ?_
  exact .bind (Neutral.moving.expect _) fun _ => .add rfl rfl fun _ => rfl

/-! ### Objects -/

theorem keeps_shorthandProperty (mind : Minding sub) (name : Child) :
    Keeps (shorthandProperty sub start name) := by
  have done (hasEquals : Bool) (value : Child) :
      Keeps (add .shorthandProperty start (.shorthandProperty name hasEquals value)) :=
    (neutral_add _ _ _).keeps
  refine (Neutral.moving.accept _).keeps.bind fun hasEquals => either ?_ (done hasEquals none)
  exact (minds_assignmentOrReport mind).keeps.bind (done hasEquals)

theorem keeps_namedObjectMember (mind : Minding sub) (marks : MethodMarks) (shorthand : Bool)
    (name : Child) : Keeps (namedObjectMember sub start marks shorthand name) := by
  refine (Neutral.moving.isAt _).keeps.bind fun found => either ?_ ?_
  · exact (sheltered_method mind (shape_method marks rfl) none marks).neutral.keeps
  · refine (Neutral.moving.accept _).keeps.bind fun colon => either ?_ (either ?_ ?_)
    · exact (minds_assignmentOrReport mind).keeps.bind fun value => (neutral_add _ _ _).keeps
    · exact keeps_shorthandProperty mind name
    · exact (Neutral.moving.expect _).keeps.bind fun _ => .pure none

theorem keeps_objectMember (mind : Minding sub) : Keeps (objectMember sub) := by
  refine neutral_tokenStart.keeps.bind fun start =>
    (Neutral.moving.isAt _).keeps.bind fun dots => ?_
  refine either (keeps_spreadOrAssignment mind) (neutral_methodMarks.keeps.bind fun marks => ?_)
  have rest (shorthand : Bool) : Keeps (do
      let name ← propertyName sub
      if name.isNone then
        reportHere .propertyAssignmentExpected
        return none
      else namedObjectMember sub start marks shorthand name) := by
    refine (sheltered_propertyName mind).neutral.keeps.bind fun name => either ?_ ?_
    · exact (sheltered_reportNone _).neutral.keeps
    · exact keeps_namedObjectMember mind marks shorthand name
  exact either (rest false) (neutral_atIdentifier.keeps.bind rest)

theorem keeps_objectMemberStep (mind : Minding sub) (members : List Child) :
    Keeps (objectMemberStep sub members) := by
  refine neutral_kind.keeps.bind fun k => either (.pure _) ?_
  refine (keeps_objectMember mind).bind fun member => either (.pure _) ?_
  exact (Neutral.moving.accept _).keeps.bind fun comma => either (.pure _) (.pure _)

theorem sheltered_objectLiteral (mind : Minding sub) : Sheltered (objectLiteral sub) := by
  refine .bind neutral_tokenCursor fun brace => .bind (Neutral.moving.expect _) fun _ => ?_
  have members : Keeps (repeating (objectMemberStep sub) []) :=
    Keeps.closed.repeating neutral_textLeft.keeps (keeps_objectMemberStep mind) []
  refine .bind (.within (fun _ => rfl) members) fun members => ?_
  refine .bind (Neutral.moving.expect _) fun _ => .bind (neutral_spansLines _) fun multiLine => ?_
  exact .add rfl rfl fun _ => rfl

/-! ### All together -/

theorem sheltered_importExpression : Sheltered importExpression := by
  refine .bind neutral_tokenStart fun start => .bind neutral_tokenEnd fun stop => ?_
  refine .bind Neutral.moving.advance fun _ => .bind (Neutral.moving.accept _) fun dot =>
    either ?_ ?_
  · exact .bind sheltered_identifierName.neutral fun name => .add rfl rfl fun _ => rfl
  · refine .bind (Neutral.moving.isAt _) fun found => either .addToken ?_
    exact .bind (Neutral.moving.expect _) fun _ => .addToken

theorem sheltered_regularExpression : Sheltered regularExpression :=
  .bind (neutral_rescan _ _) fun _ => sheltered_takeLiteral

theorem sheltered_nameOrReport : Sheltered nameOrReport :=
  .bind neutral_atIdentifier fun _ => either sheltered_identifier (sheltered_reportNone _)

theorem exists_at_kind {α : Type} {Q : Parser α → Prop} {next : TokenKind → Parser α}
    (k : TokenKind) (h : Q (next k)) :
    ∃ act, Q act ∧ ∀ s : ParserState, s.lexer.kind = k → (kind >>= next) s = act s := by
  refine ⟨next k, h, fun s here => ?_⟩
  change next s.lexer.kind s = next k s
  rw [here]

/-- Only a class sees the ban. -/
theorem exists_sheltered_primary (mind : Minding sub) {k : TokenKind}
    (other : k ≠ .word .classWord) :
    ∃ act, Sheltered act ∧ ∀ s : ParserState, s.lexer.kind = k → primary sub s = act s := by
  unfold primary
  refine exists_at_kind k ?_
  split
  · exact sheltered_takeLiteral
  · exact sheltered_takeLiteral
  · exact sheltered_takeLiteral
  · exact sheltered_template mind
  · exact sheltered_template mind
  · exact sheltered_takeToken
  · exact sheltered_takeToken
  · exact sheltered_takeToken
  · exact sheltered_takeToken
  · exact sheltered_takeToken
  · exact sheltered_parenthesized mind
  · exact sheltered_arrayLiteral mind
  · exact sheltered_objectLiteral mind
  · exact sheltered_functionExpression mind
  · refine .bind neutral_asyncFunctionAhead fun found => ?_
    exact either (sheltered_functionExpression mind) sheltered_nameOrReport
  · exact absurd rfl other
  · exact sheltered_importExpression
  · exact sheltered_regularExpression
  · exact sheltered_regularExpression
  · exact sheltered_identifierName
  · exact sheltered_nameOrReport

theorem minds_primary (mind : Minding sub) : Minds [] (primary sub) value := by
  intro s pools
  have branch : ∃ act, Minds [] act value ∧
      ∀ s', s'.lexer.kind = s.lexer.kind → primary sub s' = act s' := by
    by_cases here : s.lexer.kind = .word .classWord
    · rw [here]
      unfold primary
      exact exists_at_kind _ (minds_classOf mind true rfl nofun)
    · obtain ⟨act, sheltered, run⟩ := exists_sheltered_primary mind here
      exact ⟨act, sheltered.minds, run⟩
  obtain ⟨act, minds, run⟩ := branch
  obtain ⟨kept, bare, same, clear⟩ := minds s pools
  rw [← run s rfl] at kept bare same clear
  rw [← run s.banned rfl] at same
  exact ⟨kept, bare, same, clear⟩

/-! ### Arguments -/

theorem keeps_argumentStep (mind : Minding sub) (acc : List Child × Bool) :
    Keeps (argumentStep sub acc) := by
  refine neutral_kind.keeps.bind fun k => either (.pure _) ?_
  refine (keeps_spreadOrAssignment mind).bind fun argument => either ?_ ?_
  · exact (Neutral.moving.reportHere _).keeps.bind fun _ => .pure _
  · refine (Neutral.moving.accept _).keeps.bind fun comma => either ?_ (.pure _)
    exact (Neutral.moving.isAt _).keeps.bind fun last => .pure _

theorem neutral_argumentList (mind : Minding sub) : Neutral (argumentList sub) := by
  refine neutral_tokenStart.bind fun start => (Neutral.moving.expect _).bind fun _ => ?_
  have arguments : Keeps (repeating (argumentStep sub) ([], false)) :=
    Keeps.closed.repeating neutral_textLeft.keeps (keeps_argumentStep mind) _
  refine (Neutral.within (fun _ => rfl) arguments).bind fun acc => ?_
  exact (Neutral.moving.expect _).bind fun _ => neutral_rowFrom _ _ _

/-! ### Links -/

variable {flags : Nat} {object : Child} {questionDot : Bool}

theorem minds_propertyAccess :
    Minds (value object) (propertyAccess flags start object questionDot) value :=
  .neutral sheltered_identifierName.neutral fun _ => .add rfl nofun rfl fun _ => rfl

theorem minds_elementAccess (mind : Minding sub) :
    Minds (value object) (elementAccess sub flags start object questionDot) value := by
  refine .neutral (Neutral.moving.expect _) fun _ =>
    .neutral (neutral_inBrackets mind) fun key => ?_
  exact .neutral (Neutral.moving.expect _) fun _ => .add rfl nofun rfl fun _ => rfl

theorem minds_call (mind : Minding sub) :
    Minds (value object) (call sub flags start object) value :=
  .neutral (neutral_argumentList mind) fun _ => .add rfl nofun rfl fun _ => rfl

theorem minds_optionalLink (mind : Minding sub) :
    Minds (value object) (optionalLink sub start object) value := by
  refine .neutral neutral_kind fun k => ?_
  split
  · exact minds_elementAccess mind
  · exact minds_call mind
  · exact minds_propertyAccess

theorem minds_taggedTemplate (mind : Minding sub) (chained : Bool) :
    Minds (value object) (taggedTemplate sub chained flags start object) value := by
  unfold taggedTemplate
  refine mergedWhen <| .neutral (either (Neutral.moving.reportHere _) (.pure _)) fun _ => ?_
  exact .neutral (sheltered_template mind).neutral fun text => .add rfl nofun rfl fun _ => rfl

theorem minds_linkStep (mind : Minding sub) (allowCalls : Bool) (acc : Child × Bool) :
    Minds (value acc.1) (linkStep sub start allowCalls acc) fun answer => value answer.value.1 := by
  obtain ⟨object, chained⟩ := acc
  have link {act : Parser Child} (h : Minds (value object) act value) (chained : Bool) :
      Minds (value object) (act >>= fun c => pure (.yield (c, chained)))
        fun answer : ForInStep (Child × Bool) => value answer.value.1 :=
    h.bind fun c => .pure (.refl _)
  refine .neutral neutral_kind fun k => ?_
  split
  · exact .neutral Neutral.moving.advance fun _ => link minds_propertyAccess chained
  · exact link (minds_elementAccess mind) chained
  · exact decided (fun _ => link (minds_call mind) chained) fun _ => .pure (.refl _)
  · refine decided (fun _ => .neutral Neutral.moving.advance fun _ => ?_) fun _ => .pure (.refl _)
    exact link (minds_optionalLink mind) true
  · exact link (minds_taggedTemplate mind chained) chained
  · exact link (minds_taggedTemplate mind chained) chained
  · exact .pure (.refl _)

theorem minds_links (mind : Minding sub) (allowCalls : Bool) :
    Minds (value object) (links sub start object allowCalls) value := by
  refine .bind (Q := fun acc => value acc.1) ?_ fun acc => .pure (.refl _)
  exact .repeating (I := fun acc => value acc.1) (minds_linkStep mind allowCalls) (object, false)

/-! ### What the links follow -/

theorem minds_callee (mind : Minding sub) : Minds [] (callee sub) value := by
  refine .neutral neutral_tokenStart fun start => .neutral (Neutral.moving.isAt _) fun found => ?_
  extract_lets join
  have joined (object : Child) : Minds (value object) (join object) value := by
    unfold join
    refine decided (fun _ => minds_links mind false) fun missing => ?_
    have missing : object.isNone = true := by simpa using missing
    exact .neutral (Neutral.moving.reportHere _) fun _ => .pure (.of_isNone missing)
  have nested : Minds [] (sub .newExpression) value := mind .newExpression
  exact decided (fun _ => nested.call joined) fun _ => (minds_primary mind).call joined

theorem minds_newExpression (mind : Minding sub) : Minds [] (newExpression sub) value := by
  refine .nested (.neutral neutral_tokenStart fun start => ?_)
  refine .neutral Neutral.moving.advance fun _ => ?_
  refine .neutral (Neutral.moving.accept _) fun dot => decided (fun _ => ?_) fun _ => ?_
  · exact .neutral sheltered_identifierName.neutral fun name => .add rfl nofun rfl fun _ => rfl
  · refine (minds_callee mind).call fun object => .neutral (Neutral.moving.isAt _) fun found => ?_
    have listed : Neutral (some <$> argumentList sub) :=
      (neutral_argumentList mind).bind fun _ => .pure _
    exact merged <| .neutral (either listed (.pure _)) fun _ => .add rfl nofun rfl fun _ => rfl

theorem minds_leftHandSide (mind : Minding sub) : Minds [] (leftHandSide sub) value := by
  refine .neutral neutral_tokenStart fun start => .neutral (Neutral.moving.isAt _) fun found => ?_
  extract_lets join
  have joined (object : Child) : Minds (value object) (join object) value := by
    unfold join
    exact decided (fun missing => .pure (.of_isNone missing)) fun _ => minds_links mind true
  exact decided (fun _ => (minds_newExpression mind).call joined) fun _ =>
    (minds_primary mind).call joined

end PathGuard.Parser
