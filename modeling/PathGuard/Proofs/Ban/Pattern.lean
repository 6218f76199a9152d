import PathGuard.Grammar.Pattern
import PathGuard.Proofs.Ban.Rules
/-!
# Names, expressions and patterns under the ban on `in`

Names in brackets lift the ban; the values to fall back on in a pattern stay under it.
-/

namespace PathGuard

def Phrase.isStatement : Phrase → Bool
  | .statement => true
  | _ => false

namespace Parser

open Spot

/-- Whether a parser of phrases gives itself away where it sees the ban. -/
def Minding (sub : PhraseParser) : Prop := ∀ p, Minds [] (sub p) fun c => [⟨c, p.isStatement⟩]

variable {sub : PhraseParser} {start : Nat}

theorem Minding.assignment (mind : Minding sub) : Minds [] (sub .assignment) value :=
  mind .assignment

theorem Minding.binding (mind : Minding sub) : Minds [] (sub .binding) value := mind .binding

theorem Minding.statement (mind : Minding sub) : Minds [] (sub .statement) construct :=
  mind .statement

/-! ### Expressions -/

theorem minds_assignmentOrReport (mind : Minding sub) :
    Minds [] (assignmentOrReport sub) value :=
  mind.assignment.call fun _ =>
    mergedWhen <| .neutral (either (Neutral.moving.reportHere _) (.pure _)) fun _ => .pure (.refl _)

theorem minds_commaStep (mind : Minding sub) (left : Child) :
    Minds (value left) (commaStep sub start left) fun answer => value answer.value := by
  refine .neutral (Neutral.moving.accept _) fun found => decided (fun _ => ?_) fun _ =>
    .pure (.refl _)
  refine (minds_assignmentOrReport mind).call fun right => ?_
  exact .bind (Q := value) (.add rfl nofun rfl fun _ => rfl) fun node => .pure (.refl _)

theorem minds_expression (mind : Minding sub) : Minds [] (expression sub) value := by
  refine .neutral neutral_tokenStart fun start => mind.assignment.call fun left => ?_
  refine decided (fun missing => ?_) fun _ => .repeating (minds_commaStep mind) left
  exact .neutral (Neutral.moving.reportHere _) fun _ => .pure (.of_isNone missing)

theorem minds_initializer (mind : Minding sub) : Minds [] (initializer sub) value := by
  refine .neutral (Neutral.moving.accept _) fun found => ?_
  exact decided (fun _ => minds_assignmentOrReport mind) fun _ => .pure (.of_none _)

/-! ### Names -/

theorem sheltered_takeIdentifier (k : TokenKind) : Sheltered (takeIdentifier k) := by
  refine .bind neutral_tokenStart fun start => .bind neutral_tokenEnd fun stop => ?_
  exact .bind neutral_tokenValue fun text => .bind Neutral.moving.advance fun _ => .addSpanned

theorem sheltered_takeLiteral : Sheltered takeLiteral := by
  refine .bind neutral_kind fun k => .bind neutral_tokenStart fun start => ?_
  refine .bind neutral_tokenEnd fun stop => .bind neutral_tokenValue fun text => ?_
  exact .bind neutral_tokenText fun text => .bind Neutral.moving.advance fun _ => .addSpanned

theorem sheltered_takeToken : Sheltered takeToken := by
  refine .bind neutral_kind fun k => .bind neutral_tokenStart fun start => ?_
  exact .bind neutral_tokenEnd fun stop => .bind Neutral.moving.advance fun _ => .addToken

theorem sheltered_reportNone (cause : SyntaxError) :
    Sheltered (reportHere cause >>= fun _ => pure none) :=
  .bind (Neutral.moving.reportHere _) fun _ => .missing

theorem sheltered_identifier : Sheltered identifier :=
  .bind neutral_atIdentifier fun _ => either (sheltered_takeIdentifier _) (sheltered_reportNone _)

theorem sheltered_identifierName : Sheltered identifierName := by
  refine .bind neutral_kind fun k => either (sheltered_takeIdentifier _) ?_
  exact either (sheltered_takeIdentifier _) (sheltered_reportNone _)

theorem sheltered_computedName (mind : Minding sub) : Sheltered (computedName sub) := by
  refine .bind neutral_tokenStart fun start => .bind Neutral.moving.advance fun _ => ?_
  refine .bind (.within (fun _ => rfl) (minds_assignmentOrReport mind).keeps) fun key => ?_
  exact .bind (Neutral.moving.expect _) fun _ => .add rfl rfl fun _ => rfl

theorem sheltered_propertyName (mind : Minding sub) : Sheltered (propertyName sub) := by
  refine .bind neutral_kind fun k => ?_
  split
  · exact sheltered_takeLiteral
  · exact sheltered_takeLiteral
  · exact sheltered_takeLiteral
  · exact sheltered_computedName mind
  · exact sheltered_identifierName

/-! ### Object patterns -/

theorem minds_restElement (mind : Minding sub) : Minds [] (restElement sub start) value :=
  mind.binding.call fun _ => .add rfl nofun rfl fun _ => rfl

theorem minds_propertyElement (mind : Minding sub) :
    Minds [] (propertyElement sub start) value := by
  refine .neutral neutral_atIdentifier fun shorthand => ?_
  refine (sheltered_propertyName mind).minds.call fun key => ?_
  refine decided (fun missing => .pure (.of_isNone missing)) fun _ => ?_
  refine .neutral (Neutral.moving.accept _) fun colon => decided (fun _ => ?_) fun _ => ?_
  · refine mind.binding.call fun name => (minds_initializer mind).call fun value => ?_
    exact .add rfl nofun rfl fun _ => rfl
  · refine mergedUnless <| .neutral (either (.pure _) (Neutral.moving.expect _)) fun _ =>
      ((minds_initializer mind).call fun value => ?_)
    exact .add rfl nofun rfl fun _ => rfl

theorem minds_objectElement (mind : Minding sub) : Minds [] (objectElement sub) value := by
  refine .neutral neutral_tokenStart fun start => .neutral (Neutral.moving.accept _) fun rest => ?_
  exact decided (fun _ => minds_restElement mind) fun _ => minds_propertyElement mind

theorem minds_objectElementStep (mind : Minding sub) (elements : List Child) :
    Minds (constructs elements) (objectElementStep sub elements)
      fun answer => constructs answer.value := by
  refine .neutral neutral_kind fun k => decided (fun _ => .pure (.refl _)) fun _ => ?_
  refine (minds_objectElement mind).call fun element => ?_
  refine decided (fun missing => .pure (.drop missing)) fun _ => ?_
  exact .neutral (Neutral.moving.accept _) fun found => decided (fun _ => .pure .push) fun _ =>
    .pure .push

theorem minds_objectPattern (mind : Minding sub) : Minds [] (objectPattern sub) value := by
  refine .nested (.neutral neutral_tokenStart fun start => ?_)
  refine .neutral (Neutral.moving.expect _) fun _ => ?_
  refine (Minds.row (minds_objectElementStep mind)).call fun elements => ?_
  exact .neutral (Neutral.moving.expect _) fun _ => .addRow rfl nofun rfl fun _ => rfl

/-! ### Array patterns -/

theorem sheltered_hole : Sheltered hole :=
  .bind neutral_tokenStart fun _ => .before .addToken Neutral.moving.advance

theorem minds_arrayElementStep (mind : Minding sub) (elements : List Child) :
    Minds (constructs elements) (arrayElementStep sub elements)
      fun answer => constructs answer.value := by
  refine .neutral neutral_kind fun k => decided (fun _ => .pure (.refl _)) fun _ => ?_
  refine decided (fun _ => sheltered_hole.minds.call fun node => .pure .push) fun _ => ?_
  refine .neutral neutral_tokenStart fun start => .neutral (Neutral.moving.accept _) fun rest => ?_
  refine mind.binding.call fun name => decided (fun missing => .pure (.drop missing)) fun _ => ?_
  refine (minds_initializer mind).call fun value => ?_
  rw [List.append_assoc]
  refine .upon (Q := Spot.value) (.add rfl nofun rfl fun _ => rfl) fun element => ?_
  exact .neutral (Neutral.moving.accept _) fun found => decided (fun _ => .pure .push) fun _ =>
    .pure .push

theorem minds_arrayPattern (mind : Minding sub) : Minds [] (arrayPattern sub) value := by
  refine .nested (.neutral neutral_tokenStart fun start => ?_)
  refine .neutral (Neutral.moving.expect _) fun _ => ?_
  refine (Minds.row (minds_arrayElementStep mind)).call fun elements => ?_
  exact .neutral (Neutral.moving.expect _) fun _ => .addRow rfl nofun rfl fun _ => rfl

theorem minds_binding (mind : Minding sub) : Minds [] (binding sub) value := by
  refine .neutral neutral_kind fun k => ?_
  split
  · exact minds_objectPattern mind
  · exact minds_arrayPattern mind
  · exact sheltered_identifier.minds

/-! ### Parameters -/

theorem keeps_parameter (mind : Minding sub) : Keeps (parameter sub) := by
  refine neutral_tokenStart.keeps.bind fun start =>
    (Neutral.moving.accept _).keeps.bind fun rest => ?_
  refine (minds_binding mind).keeps.bind fun name => either (.pure none) ?_
  exact (minds_initializer mind).keeps.bind fun value => (neutral_add _ _ _).keeps

theorem keeps_parameterStep (mind : Minding sub) (acc : List Child × Bool) :
    Keeps (parameterStep sub acc) := by
  refine neutral_kind.keeps.bind fun k => either (.pure _) ?_
  refine (keeps_parameter mind).bind fun node => either (.pure _) ?_
  refine (Neutral.moving.accept _).keeps.bind fun comma => either ?_ (.pure _)
  exact (Neutral.moving.isAt _).keeps.bind fun last => .pure _

theorem keeps_parameterList (mind : Minding sub) : Keeps (parameterList sub) := by
  refine neutral_tokenStart.keeps.bind fun start => (Neutral.moving.expect _).keeps.bind fun _ => ?_
  have parameters : Keeps (repeating (parameterStep sub) ([], false)) :=
    Keeps.closed.repeating neutral_textLeft.keeps (keeps_parameterStep mind) _
  refine parameters.bind fun acc => ?_
  exact (Neutral.moving.expect _).keeps.bind fun _ => (neutral_rowFrom _ _ _).keeps

end Parser

end PathGuard
