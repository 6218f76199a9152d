import PathGuard.Grammar.Pattern
import PathGuard.Proofs.Guard.Rules
/-!
# Coming back from names, patterns and parameters
-/

namespace PathGuard.Parser

/-- Whether a parser of phrases comes back from every phrase, with an own node as its answer. -/
def GuardsPhrases (own : NodeId → Prop) (sub : PhraseParser) : Prop :=
  ∀ p : Phrase, Guards own (sub p) (Owned own)

variable {own : NodeId → Prop} {sub : PhraseParser} {start : Nat}

/-! ### Expressions -/

theorem guards_assignmentOrReport (hsub : GuardsPhrases own sub) :
    Guards own (assignmentOrReport sub) (Owned own) :=
  (hsub .assignment).bind fun _ mine => mergedWhen <|
    .step (either (Guards.moving.reportHere _) (Guards.closed.pure _)) fun _ =>
    .pure mine

theorem guards_commaStep (hsub : GuardsPhrases own sub) {left : Child} (mine : Owned own left) :
    Guards own (commaStep sub start left) fun answer => Owned own answer.value := by
  refine (Guards.moving.accept _).step fun comma => either ?_ (.pure mine)
  refine (guards_assignmentOrReport hsub).bind fun right other => ?_
  exact (guards_add _ _ (.cons mine (.one other))).bind fun node joined => .pure joined

theorem guards_expression (hsub : GuardsPhrases own sub) :
    Guards own (expression sub) (Owned own) := by
  refine .look looks_tokenStart fun start => (hsub .assignment).bind fun left mine => either ?_ ?_
  · exact guards_reportMissing _
  · exact .repeating (fun _ => guards_commaStep hsub) mine

theorem guards_initializer (hsub : GuardsPhrases own sub) :
    Guards own (initializer sub) (Owned own) :=
  (Guards.moving.accept _).step fun _ => either (guards_assignmentOrReport hsub) (.pure owned_none)

/-! ### Names and literals -/

theorem guards_takeIdentifier (k : TokenKind) : Guards own (takeIdentifier k) (Owned own) := by
  refine .look looks_tokenStart fun start => .look looks_tokenEnd fun stop => ?_
  refine .look looks_tokenValue fun text => Guards.moving.advance.step fun _ => ?_
  exact guards_addSpanned _ _ _ .nil

theorem guards_takeLiteral : Guards own takeLiteral (Owned own) := by
  refine .look looks_kind fun k => .look looks_tokenStart fun start => ?_
  refine .look looks_tokenEnd fun stop => .look looks_tokenValue fun value => ?_
  refine .look looks_tokenText fun text => Guards.moving.advance.step fun _ => ?_
  exact guards_addSpanned _ _ _ .nil

theorem guards_takeToken : Guards own takeToken (Owned own) := by
  refine .look looks_kind fun k => .look looks_tokenStart fun start => ?_
  exact .look looks_tokenEnd fun stop => Guards.moving.advance.step fun _ => guards_addToken _ _ _

theorem guards_identifier : Guards own identifier (Owned own) :=
  .look looks_atIdentifier fun _ => either (guards_takeIdentifier _) (guards_reportMissing _)

theorem guards_identifierName : Guards own identifierName (Owned own) := by
  refine .look looks_kind fun k => either (guards_takeIdentifier _) ?_
  refine either (guards_takeIdentifier _) ?_
  exact guards_reportMissing _

theorem guards_computedName (hsub : GuardsPhrases own sub) :
    Guards own (computedName sub) (Owned own) := by
  refine .look looks_tokenStart fun start => Guards.moving.advance.step fun _ => ?_
  refine (guards_assignmentOrReport hsub).within _ |>.bind fun expression mine => ?_
  exact (Guards.moving.expect _).step fun _ => guards_add _ _ (.one mine)

theorem guards_propertyName (hsub : GuardsPhrases own sub) :
    Guards own (propertyName sub) (Owned own) := by
  refine .look looks_kind fun k => ?_
  split
  · exact guards_takeLiteral
  · exact guards_takeLiteral
  · exact guards_takeLiteral
  · exact guards_computedName hsub
  · exact guards_identifierName

/-! ### Object patterns -/

theorem guards_restElement (hsub : GuardsPhrases own sub) :
    Guards own (restElement sub start) (Owned own) :=
  (hsub .binding).bind fun _ mine =>
    guards_add _ _ (.cons owned_none (.cons mine (.one owned_none)))

theorem guards_propertyElement (hsub : GuardsPhrases own sub) :
    Guards own (propertyElement sub start) (Owned own) := by
  refine .look looks_atIdentifier fun shorthand => (guards_propertyName hsub).bind fun key named => ?_
  refine either (.pure owned_none) ((Guards.moving.accept _).step fun colon => either ?_ ?_)
  · refine (hsub .binding).bind fun name mine => (guards_initializer hsub).bind fun value given => ?_
    exact guards_add _ _ (.cons named (.cons mine (.one given)))
  · refine mergedUnless <|
      .step (either (Guards.closed.pure _) (Guards.moving.expect _)) fun _ => ?_
    refine (guards_initializer hsub).bind fun value given => ?_
    exact guards_add _ _ (.cons owned_none (.cons named (.one given)))

theorem guards_objectElement (hsub : GuardsPhrases own sub) :
    Guards own (objectElement sub) (Owned own) :=
  .look looks_tokenStart fun _ => (Guards.moving.accept _).step fun _ =>
    either (guards_restElement hsub) (guards_propertyElement hsub)

theorem guards_objectElementStep (hsub : GuardsPhrases own sub) {elements : List Child}
    (mine : OwnedAll own elements) :
    Guards own (objectElementStep sub elements) fun answer => OwnedAll own answer.value := by
  refine .look looks_kind fun k => either (.pure mine) ?_
  refine (guards_objectElement hsub).bind fun element one_ => either (.pure mine) ?_
  exact guards_orDone (.cons one_ mine)

theorem guards_objectPattern (hsub : GuardsPhrases own sub) :
    Guards own (objectPattern sub) (Owned own) := by
  refine .nested (.look looks_tokenStart fun start => (Guards.moving.expect _).step fun _ => ?_)
  refine .bind (.repeating (fun _ => guards_objectElementStep hsub) .nil) fun elements mine => ?_
  exact (Guards.moving.expect _).step fun _ => guards_add _ _ mine.reverse

/-! ### Array patterns -/

theorem guards_hole : Guards own hole (Owned own) := by
  refine .look looks_tokenStart fun start => (guards_addToken _ _ _).bind fun node mine => ?_
  exact Guards.moving.advance.step fun _ => .pure mine

theorem guards_arrayElementStep (hsub : GuardsPhrases own sub) {elements : List Child}
    (mine : OwnedAll own elements) :
    Guards own (arrayElementStep sub elements) fun answer => OwnedAll own answer.value := by
  refine .look looks_kind fun k => either (.pure mine) (either ?_ ?_)
  · exact guards_hole.bind fun node empty => .pure (.cons empty mine)
  refine .look looks_tokenStart fun start => (Guards.moving.accept _).step fun rest => ?_
  refine (hsub .binding).bind fun name bound => either (.pure mine) ?_
  refine (guards_initializer hsub).bind fun value given => ?_
  refine (guards_add _ _ (.cons owned_none (.cons bound (.one given)))).bind fun element one_ => ?_
  exact guards_orDone (.cons one_ mine)

theorem guards_arrayPattern (hsub : GuardsPhrases own sub) :
    Guards own (arrayPattern sub) (Owned own) := by
  refine .nested (.look looks_tokenStart fun start => (Guards.moving.expect _).step fun _ => ?_)
  refine .bind (.repeating (fun _ => guards_arrayElementStep hsub) .nil) fun elements mine => ?_
  exact (Guards.moving.expect _).step fun _ => guards_add _ _ mine.reverse

theorem guards_binding (hsub : GuardsPhrases own sub) : Guards own (binding sub) (Owned own) := by
  refine .look looks_kind fun k => ?_
  split
  · exact guards_objectPattern hsub
  · exact guards_arrayPattern hsub
  · exact guards_identifier

/-! ### Parameters -/

theorem guards_parameter (hsub : GuardsPhrases own sub) :
    Guards own (parameter sub) (Owned own) := by
  refine .look looks_tokenStart fun start => (Guards.moving.accept _).step fun rest => ?_
  refine (guards_binding hsub).bind fun name bound => either (.pure owned_none) ?_
  exact (guards_initializer hsub).bind fun value given => guards_add _ _ (.cons bound (.one given))

theorem guards_parameterStep (hsub : GuardsPhrases own sub) {acc : List Child × Bool}
    (mine : OwnedAll own acc.1) :
    Guards own (parameterStep sub acc) fun answer => OwnedAll own answer.value.1 := by
  refine .look looks_kind fun k => either (.pure mine) ?_
  refine (guards_parameter hsub).bind fun node one_ => either (.pure mine) ?_
  refine (Guards.moving.accept _).step fun comma => either ?_ (.pure (.cons one_ mine))
  exact .look (looks_isAt _) fun last => .pure (.cons one_ mine)

theorem guards_parameterList (hsub : GuardsPhrases own sub) :
    Guards own (parameterList sub) fun row => OwnedAll own row.nodes := by
  refine .look looks_tokenStart fun start => (Guards.moving.expect _).step fun _ => ?_
  refine .bind (.repeating (fun _ => guards_parameterStep hsub) .nil) fun acc mine => ?_
  exact (Guards.moving.expect _).step fun _ => guards_rowFrom mine.reverse

end PathGuard.Parser
