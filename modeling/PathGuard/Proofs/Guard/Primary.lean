import PathGuard.Grammar.Member
import PathGuard.Proofs.Guard.Class
/-!
# Coming back from primary expressions, members and calls

The expression in front of a link was parsed before and is passed on, so that it can become a part of
the link.
-/

namespace PathGuard.Parser

variable {own : NodeId → Prop} {sub : PhraseParser} {start flags : Nat} {object name : Child}

/-! ### Templates -/

theorem guards_templateSpanStep (hsub : GuardsPhrases own sub) {spans : List Child}
    (mine : OwnedAll own spans) :
    Guards own (templateSpanStep sub spans) fun answer => OwnedAll own answer.value := by
  refine .look looks_tokenStart fun start => ?_
  refine .bind (.within _ (guards_expression hsub)) fun value inner => ?_
  refine .look (looks_isAt _) fun brace =>
    either ?_ ((Guards.moving.expect _).step fun _ => .pure mine)
  refine (guards_rescan _ _).step fun _ => .look (looks_isAt _) fun ends => ?_
  refine guards_takeLiteral.bind fun literal piece => ?_
  refine (guards_add _ _ (.cons inner (.one piece))).bind fun span one_ => .pure ?_
  cases ends with
  | true => exact .cons one_ mine
  | false => exact .cons one_ mine

theorem guards_template (hsub : GuardsPhrases own sub) : Guards own (template sub) (Owned own) := by
  refine .look (looks_isAt _) fun whole => either guards_takeLiteral ?_
  refine .look looks_tokenStart fun start => guards_takeLiteral.bind fun head first => ?_
  refine .bind (.repeating (fun _ => guards_templateSpanStep hsub) .nil) fun spans mine => ?_
  exact guards_add _ _ (.cons first mine.reverse)

/-! ### Brackets -/

theorem guards_parenthesized (hsub : GuardsPhrases own sub) :
    Guards own (parenthesized sub) (Owned own) := by
  refine .look looks_tokenStart fun start => Guards.moving.advance.step fun _ => ?_
  refine .bind (.within _ (guards_expression hsub)) fun value inner => ?_
  exact (Guards.moving.expect _).step fun _ => guards_add _ _ (.one inner)

theorem guards_spreadOrAssignment (hsub : GuardsPhrases own sub) (k : NodeKind) :
    Guards own (spreadOrAssignment sub k) (Owned own) := by
  refine .look (looks_isAt _) fun dots => either ?_ (hsub .assignment)
  refine .look looks_tokenStart fun start => Guards.moving.advance.step fun _ => ?_
  refine (guards_assignmentOrReport hsub).bind fun value inner => ?_
  exact guards_add _ _ (.one inner)

theorem guards_arrayStep (hsub : GuardsPhrases own sub) {elements : List Child}
    (mine : OwnedAll own elements) :
    Guards own (arrayStep sub elements) fun answer => OwnedAll own answer.value := by
  refine .look looks_kind fun k => either (.pure mine) (either ?_ ?_)
  · exact guards_hole.bind fun node empty => .pure (.cons empty mine)
  refine (guards_spreadOrAssignment hsub _).bind fun element one_ => either ?_ ?_
  · exact (Guards.moving.reportHere _).step fun _ => .pure mine
  · exact guards_orDone (.cons one_ mine)

theorem guards_arrayLiteral (hsub : GuardsPhrases own sub) :
    Guards own (arrayLiteral sub) (Owned own) := by
  refine .look looks_tokenStart fun start => Guards.moving.advance.step fun _ => ?_
  refine .bind (.within _ (.repeating (fun _ => guards_arrayStep hsub) .nil)) fun elements mine => ?_
  exact (Guards.moving.expect _).step fun _ => guards_add _ _ mine.reverse

/-! ### Objects -/

theorem guards_shorthandProperty (hsub : GuardsPhrases own sub) (named : Owned own name) :
    Guards own (shorthandProperty sub start name) (Owned own) := by
  refine (Guards.moving.accept _).step fun hasEquals => ?_
  exact merged <| .bind (either (guards_assignmentOrReport hsub) (.pure owned_none)) fun value given =>
    guards_add _ _ (.cons named (.one given))

theorem guards_namedObjectMember (hsub : GuardsPhrases own sub) (marks : MethodMarks)
    (shorthand : Bool) (named : Owned own name) :
    Guards own (namedObjectMember sub start marks shorthand name) (Owned own) := by
  refine .look (looks_isAt _) fun group => either (guards_method hsub marks .nil named) ?_
  refine (Guards.moving.accept _).step fun colon => either ?_ ?_
  · refine (guards_assignmentOrReport hsub).bind fun value given => ?_
    exact guards_add _ _ (.cons named (.one given))
  · refine either (guards_shorthandProperty hsub named) ?_
    exact (Guards.moving.expect _).step fun _ => .pure owned_none

theorem guards_objectMember (hsub : GuardsPhrases own sub) :
    Guards own (objectMember sub) (Owned own) := by
  refine .look looks_tokenStart fun start => .look (looks_isAt _) fun dots => ?_
  refine either (guards_spreadOrAssignment hsub _) (guards_methodMarks.step fun marks => ?_)
  refine merged <| .bind (either (.pure trivial) (.looks looks_atIdentifier)) fun shorthand _ => ?_
  refine (guards_propertyName hsub).bind fun name named => either ?_ ?_
  · exact guards_reportMissing _
  · exact guards_namedObjectMember hsub marks shorthand named

theorem guards_objectMemberStep (hsub : GuardsPhrases own sub) {members : List Child}
    (mine : OwnedAll own members) :
    Guards own (objectMemberStep sub members) fun answer => OwnedAll own answer.value := by
  refine .look looks_kind fun k => either (.pure mine) ?_
  refine (guards_objectMember hsub).bind fun member one_ => either (.pure mine) ?_
  exact guards_orDone (.cons one_ mine)

theorem guards_objectLiteral (hsub : GuardsPhrases own sub) :
    Guards own (objectLiteral sub) (Owned own) := by
  refine .look looks_tokenCursor fun brace => (Guards.moving.expect _).step fun _ => ?_
  have listed : Guards own (repeating (objectMemberStep sub) []) (OwnedAll own) :=
    .repeating (fun _ => guards_objectMemberStep hsub) .nil
  refine .bind (.within _ listed) fun members mine => ?_
  refine (Guards.moving.expect _).step fun _ => .look (looks_spansLines _) fun multiLine => ?_
  exact guards_add _ _ mine.reverse

/-! ### Primary expressions -/

theorem guards_importExpression : Guards own importExpression (Owned own) := by
  refine .look looks_tokenStart fun start => .look looks_tokenEnd fun stop => ?_
  refine Guards.moving.advance.step fun _ => (Guards.moving.accept _).step fun dot => either ?_ ?_
  · exact guards_identifierName.bind fun name named => guards_add _ _ (.one named)
  · refine .look (looks_isAt _) fun group => mergedUnless ?_
    exact .step (either (Guards.closed.pure _) (Guards.moving.expect _)) fun _ =>
      guards_addToken _ _ _

theorem guards_regularExpression : Guards own regularExpression (Owned own) :=
  (guards_rescan _ _).step fun _ => guards_takeLiteral

theorem guards_nameOrReport : Guards own nameOrReport (Owned own) :=
  .look looks_atIdentifier fun _ => either guards_identifier (guards_reportMissing _)

theorem guards_primary (hsub : GuardsPhrases own sub) : Guards own (primary sub) (Owned own) := by
  refine .look looks_kind fun k => ?_
  split
  · exact guards_takeLiteral
  · exact guards_takeLiteral
  · exact guards_takeLiteral
  · exact guards_template hsub
  · exact guards_template hsub
  · exact guards_takeToken
  · exact guards_takeToken
  · exact guards_takeToken
  · exact guards_takeToken
  · exact guards_takeToken
  · exact guards_parenthesized hsub
  · exact guards_arrayLiteral hsub
  · exact guards_objectLiteral hsub
  · exact guards_functionExpression hsub
  · exact .look looks_asyncFunctionAhead fun found =>
      either (guards_functionExpression hsub) guards_nameOrReport
  · exact guards_classOf hsub true
  · exact guards_importExpression
  · exact guards_regularExpression
  · exact guards_regularExpression
  · exact guards_identifierName
  · exact guards_nameOrReport

/-! ### Arguments -/

theorem guards_argumentStep (hsub : GuardsPhrases own sub) {acc : List Child × Bool}
    (mine : OwnedAll own acc.1) :
    Guards own (argumentStep sub acc) fun answer => OwnedAll own answer.value.1 := by
  refine .look looks_kind fun k => either (.pure mine) ?_
  refine (guards_spreadOrAssignment hsub _).bind fun argument one_ => either ?_ ?_
  · exact (Guards.moving.reportHere _).step fun _ => .pure mine
  refine (Guards.moving.accept _).step fun comma => either ?_ (.pure (.cons one_ mine))
  exact .look (looks_isAt _) fun last => .pure (.cons one_ mine)

theorem guards_argumentList (hsub : GuardsPhrases own sub) :
    Guards own (argumentList sub) fun row => OwnedAll own row.nodes := by
  refine .look looks_tokenStart fun start => (Guards.moving.expect _).step fun _ => ?_
  refine .bind (.within _ (.repeating (fun _ => guards_argumentStep hsub) .nil)) fun acc mine => ?_
  exact (Guards.moving.expect _).step fun _ => guards_rowFrom mine.reverse

/-! ### Links -/

theorem guards_propertyAccess (questionDot : Bool) (mine : Owned own object) :
    Guards own (propertyAccess flags start object questionDot) (Owned own) :=
  guards_identifierName.bind fun _ named => guards_addFlagged _ _ _ (.cons mine (.one named))

theorem guards_elementAccess (hsub : GuardsPhrases own sub) (questionDot : Bool)
    (mine : Owned own object) :
    Guards own (elementAccess sub flags start object questionDot) (Owned own) := by
  refine (Guards.moving.expect _).step fun _ => ?_
  refine .bind (.within _ (guards_expression hsub)) fun key inner => ?_
  exact (Guards.moving.expect _).step fun _ => guards_addFlagged _ _ _ (.cons mine (.one inner))

theorem guards_call (hsub : GuardsPhrases own sub) (mine : Owned own object) :
    Guards own (call sub flags start object) (Owned own) :=
  (guards_argumentList hsub).bind fun _ given => guards_addFlagged _ _ _ (.cons mine given)

theorem guards_optionalLink (hsub : GuardsPhrases own sub) (mine : Owned own object) :
    Guards own (optionalLink sub start object) (Owned own) := by
  refine .look looks_kind fun k => ?_
  split
  · exact guards_elementAccess hsub true mine
  · exact guards_call hsub mine
  · exact guards_propertyAccess true mine

theorem guards_taggedTemplate (hsub : GuardsPhrases own sub) (chained : Bool)
    (mine : Owned own object) :
    Guards own (taggedTemplate sub chained flags start object) (Owned own) := by
  unfold taggedTemplate
  refine mergedWhen <|
    .step (either (Guards.moving.reportHere _) (Guards.closed.pure _)) fun _ => ?_
  exact (guards_template hsub).bind fun _ given => guards_addFlagged _ _ _ (.cons mine (.one given))

theorem guards_linkStep (hsub : GuardsPhrases own sub) (allowCalls : Bool) {acc : Child × Bool}
    (mine : Owned own acc.1) :
    Guards own (linkStep sub start allowCalls acc) fun answer => Owned own answer.value.1 := by
  obtain ⟨object, chained⟩ := acc
  refine .look looks_kind fun k => ?_
  split
  · refine Guards.moving.advance.step fun _ => ?_
    exact (guards_propertyAccess false mine).bind fun node linked => .pure linked
  · exact (guards_elementAccess hsub false mine).bind fun node linked => .pure linked
  · exact either ((guards_call hsub mine).bind fun node linked => .pure linked) (.pure mine)
  · refine either (Guards.moving.advance.step fun _ => ?_) (.pure mine)
    exact (guards_optionalLink hsub mine).bind fun node linked => .pure linked
  · exact (guards_taggedTemplate hsub chained mine).bind fun node linked => .pure linked
  · exact (guards_taggedTemplate hsub chained mine).bind fun node linked => .pure linked
  · exact .pure mine

theorem guards_links (hsub : GuardsPhrases own sub) (allowCalls : Bool) (mine : Owned own object) :
    Guards own (links sub start object allowCalls) (Owned own) :=
  .bind (.repeating (I := fun acc => Owned own acc.1) (fun _ => guards_linkStep hsub allowCalls) mine)
    fun _ linked => .pure linked

/-! ### What the links follow -/

theorem guards_callee (hsub : GuardsPhrases own sub) : Guards own (callee sub) (Owned own) := by
  have joined (start : Nat) (object : Child) (mine : Owned own object) : Guards own
      (if object.isSome then links sub start object false
        else do
          reportHere .expressionExpected
          return none) (Owned own) :=
    either (guards_links hsub false mine) (guards_reportMissing _)
  refine .look looks_tokenStart fun start => .look (looks_isAt _) fun word => either ?_ ?_
  · exact (hsub .newExpression).bind (joined start)
  · exact (guards_primary hsub).bind (joined start)

theorem guards_newExpression (hsub : GuardsPhrases own sub) :
    Guards own (newExpression sub) (Owned own) := by
  refine .nested (.look looks_tokenStart fun start => Guards.moving.advance.step fun _ => ?_)
  refine (Guards.moving.accept _).step fun dot => either ?_ ?_
  · exact guards_identifierName.bind fun name named => guards_add _ _ (.one named)
  refine (guards_callee hsub).bind fun object mine => .look (looks_isAt _) fun group => either ?_ ?_
  · have listed : Guards own (some <$> argumentList sub) fun arguments =>
        OwnedAll own (Record.optionalNodes arguments) :=
      (guards_argumentList hsub).bind fun _ given => .pure given
    exact listed.bind fun arguments given => guards_add _ _ (.cons mine given)
  · exact guards_add _ _ (.cons mine .nil)

theorem guards_leftHandSide (hsub : GuardsPhrases own sub) :
    Guards own (leftHandSide sub) (Owned own) := by
  have joined (start : Nat) (object : Child) (mine : Owned own object) : Guards own
      (if object.isNone then pure none else links sub start object true) (Owned own) :=
    either (.pure owned_none) (guards_links hsub true mine)
  refine .look looks_tokenStart fun start => .look (looks_isAt _) fun word => either ?_ ?_
  · exact (guards_newExpression hsub).bind (joined start)
  · exact (guards_primary hsub).bind (joined start)

end PathGuard.Parser
