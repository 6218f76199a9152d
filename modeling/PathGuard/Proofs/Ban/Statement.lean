import PathGuard.Grammar.Statement
import PathGuard.Proofs.Ban.Operator
/-!
# Statements under the ban on `in`

A static block holds statements, and these stay under the ban that its class is under. The head of a
`for` brings a ban of its own and lifts it behind.
-/

namespace PathGuard.Parser

open Spot

variable {sub : PhraseParser} {start : Nat} {k : NodeKind}

/-! ### Variables -/

theorem minds_variableDeclaration (mind : Minding sub) :
    Minds [] (variableDeclaration sub) value := by
  refine .neutral neutral_tokenStart fun start => (minds_binding mind).call fun name => ?_
  refine decided (fun missing => .pure (.of_isNone missing)) fun _ => ?_
  exact (minds_initializer mind).call fun value => .add rfl nofun rfl fun _ => rfl

theorem minds_declarationStep (mind : Minding sub) (declarations : List Child) :
    Minds (constructs declarations) (declarationStep sub declarations)
      fun answer => constructs answer.value := by
  refine (minds_variableDeclaration mind).call fun declaration => ?_
  refine decided (fun missing => .pure (.drop missing)) fun _ => ?_
  exact .neutral (Neutral.moving.accept _) fun found => decided (fun _ => .pure .push) fun _ =>
    .pure .push

theorem minds_variableDeclarationList (mind : Minding sub) :
    Minds [] (variableDeclarationList sub) value := by
  refine .neutral neutral_tokenStart fun start => .neutral neutral_kind fun k => ?_
  refine .neutral Neutral.moving.advance fun _ => ?_
  refine (Minds.row (minds_declarationStep mind)).call fun declarations => ?_
  exact mergedWhen <| .neutral (either (Neutral.moving.reportHere _) (.pure _)) fun _ =>
    .addRow rfl nofun rfl fun _ => rfl

theorem minds_variableStatement (mind : Minding sub) : Minds [] (variableStatement sub) value := by
  refine .neutral neutral_tokenStart fun start => ?_
  refine (minds_variableDeclarationList mind).call fun list => ?_
  exact .neutral Neutral.moving.endStatement fun _ => .add rfl nofun rfl fun _ => rfl

/-! ### Simple statements -/

theorem sheltered_emptyStatement : Sheltered emptyStatement := by
  refine .bind neutral_tokenStart fun start => .bind Neutral.moving.advance fun _ => ?_
  exact .bind neutral_previousEnd fun _ => .addToken

theorem sheltered_debuggerStatement : Sheltered debuggerStatement := by
  refine .bind neutral_tokenStart fun start => .bind Neutral.moving.advance fun _ => ?_
  exact .bind Neutral.moving.endStatement fun _ => .bind neutral_previousEnd fun _ => .addToken

theorem minds_expressionStatement (mind : Minding sub) :
    Minds [] (expressionStatement sub) value := by
  refine .neutral neutral_tokenStart fun start => (minds_expression mind).call fun value => ?_
  refine decided (fun missing => .pure (.of_isNone missing)) fun _ => ?_
  exact .neutral Neutral.moving.endStatement fun _ => .add rfl nofun rfl fun _ => rfl

theorem minds_labeledStatement (mind : Minding sub) : Minds [] (labeledStatement sub) value := by
  refine .neutral neutral_tokenStart fun start => ?_
  refine .neutral sheltered_identifier.neutral fun label =>
    .neutral (Neutral.moving.expect _) fun _ => ?_
  refine mind.statement.call fun statement => ?_
  exact .add rfl nofun rfl fun _ => rfl

theorem sheltered_jumpStatement (shape : k.shape? = some .jump) : Sheltered (jumpStatement k) := by
  refine .bind neutral_tokenStart fun start => .bind Neutral.moving.advance fun _ => ?_
  refine .bind neutral_atIdentifier fun found => ?_
  extract_lets join join'
  have ended (label : Child) : Sheltered (join label) :=
    .bind Neutral.moving.endStatement fun _ => .add shape rfl fun _ => rfl
  have joined (labeled : Bool) : Sheltered (join' labeled) := by
    unfold join'
    exact either (.bind sheltered_identifier.neutral ended) (ended none)
  exact either (.bind neutral_afterLineBreak fun _ => joined _) (joined false)

theorem minds_returnOrThrow (mind : Minding sub) (shape : k.shape? = some .returnOrThrow)
    (noBlock : k ≠ .block) : Minds [] (returnOrThrow sub k) value := by
  refine .neutral neutral_tokenStart fun start => .neutral Neutral.moving.advance fun _ => ?_
  refine .neutral neutral_atStatementEnd fun ended => ?_
  have joined (value : Child) : Minds (Spot.value value) (do
      endStatement
      add k start (.returnOrThrow value)) Spot.value :=
    .neutral Neutral.moving.endStatement fun _ => .add shape (fun _ => noBlock) rfl fun _ => rfl
  exact decided (fun _ => .without joined) fun _ => (minds_expression mind).call joined

/-! ### Choices and loops -/

theorem minds_condition (mind : Minding sub) : Minds [] (condition sub) value := by
  refine .neutral (Neutral.moving.expect _) fun _ => (minds_expression mind).call fun value => ?_
  exact .neutral (Neutral.moving.expect _) fun _ => .pure (.refl _)

theorem minds_ifStatement (mind : Minding sub) : Minds [] (ifStatement sub) value := by
  refine .neutral neutral_tokenStart fun start => .neutral Neutral.moving.advance fun _ => ?_
  refine (minds_condition mind).call fun test => mind.statement.call fun thenStatement => ?_
  refine .neutral (Neutral.moving.accept _) fun found => ?_
  refine merged <| .call (Q := construct) ?_ fun elseStatement => .add rfl nofun rfl fun _ => rfl
  exact either mind.statement (.pure (.of_none _))

theorem minds_doStatement (mind : Minding sub) : Minds [] (doStatement sub) value := by
  refine .neutral neutral_tokenStart fun start => .neutral Neutral.moving.advance fun _ => ?_
  refine mind.statement.call fun statement => .neutral (Neutral.moving.expect _) fun _ => ?_
  refine (minds_condition mind).call fun test => .neutral (Neutral.moving.accept _) fun _ => ?_
  exact .given (P := value test ++ construct statement) (.add rfl nofun rfl fun _ => rfl) .swap

theorem minds_whileStatement (mind : Minding sub) : Minds [] (whileStatement sub) value := by
  refine .neutral neutral_tokenStart fun start => .neutral Neutral.moving.advance fun _ => ?_
  refine (minds_condition mind).call fun test => mind.statement.call fun statement => ?_
  exact .add rfl nofun rfl fun _ => rfl

theorem neutral_atVariables : Neutral atVariables := by
  refine neutral_kind.bind fun k => ?_
  split
  · exact .pure true
  · exact .pure true
  · exact neutral_letDeclarationAhead
  · exact .pure false

theorem neutral_forInitializer (mind : Minding sub) : Neutral (forInitializer sub) := by
  refine (Neutral.moving.isAt _).bind fun found => either (.pure none) ?_
  refine neutral_atVariables.bind fun declares => either ?_ ?_
  · exact .within (fun _ => rfl) (minds_variableDeclarationList mind).keeps
  · exact .within (fun _ => rfl) (minds_expression mind).keeps

theorem minds_forMembers (mind : Minding sub) {isAwait : Bool} {initial members : Child}
    (shape : k.shape? = some .forInOf) (noBlock : k ≠ .block) :
    Minds [] (forMembers sub k start isAwait initial members) value := by
  refine .neutral (Neutral.moving.expect _) fun _ => mind.statement.call fun statement => ?_
  exact .add shape (fun _ => noBlock) rfl fun _ => rfl

theorem neutral_forPart (mind : Minding sub) (stop : Punctuator) : Neutral (forPart sub stop) :=
  (Neutral.moving.isAt _).bind fun _ => either (.pure none) (neutral_inBrackets mind)

theorem minds_forCondition (mind : Minding sub) (initial : Child) :
    Minds [] (forCondition sub start initial) value := by
  refine .neutral (Neutral.moving.expect _) fun _ =>
    .neutral (neutral_forPart mind _) fun test => ?_
  refine .neutral (Neutral.moving.expect _) fun _ =>
    .neutral (neutral_forPart mind _) fun next => ?_
  refine .neutral (Neutral.moving.expect _) fun _ => mind.statement.call fun statement => ?_
  exact .add rfl nofun rfl fun _ => rfl

theorem minds_forStatement (mind : Minding sub) : Minds [] (forStatement sub) value := by
  refine .neutral neutral_tokenStart fun start => .neutral Neutral.moving.advance fun _ => ?_
  refine .neutral (Neutral.moving.accept _) fun isAwait =>
    .neutral (Neutral.moving.expect _) fun _ => ?_
  refine .neutral (neutral_forInitializer mind) fun initial => ?_
  refine .neutral (Neutral.moving.accept _) fun ofWord => decided (fun _ => ?_) fun _ => ?_
  · refine .neutral (.within (fun _ => rfl) (minds_assignmentOrReport mind).keeps) fun members => ?_
    exact minds_forMembers mind rfl nofun
  · refine .neutral (Neutral.moving.accept _) fun inWord => decided (fun _ => ?_) fun _ => ?_
    · refine .neutral (neutral_inBrackets mind) fun members => ?_
      exact minds_forMembers mind rfl nofun
    · exact minds_forCondition mind initial

theorem minds_clauseBody (mind : Minding sub) {value : Child} (shape : k.shape? = some .caseClause)
    (noBlock : k ≠ .block) : Minds (Spot.value value) (clauseBody sub k start value) Spot.value := by
  refine .neutral (Neutral.moving.expect _) fun _ =>
    (minds_statementList mind _).call fun statements => ?_
  refine .add shape (fun _ => noBlock) rfl fun _ => ?_
  rw [List.map_append, constructs_child]
  rfl

theorem minds_clauseStep (mind : Minding sub) (clauses : List Child) :
    Minds (constructs clauses) (clauseStep sub clauses)
      fun answer => constructs answer.value := by
  refine .neutral neutral_kind fun k => decided (fun _ => .pure (.refl _)) fun _ => ?_
  refine .neutral neutral_tokenStart fun start => .neutral (Neutral.moving.accept _) fun case_ => ?_
  refine decided (fun _ => (minds_expression mind).call fun value => ?_) fun _ => ?_
  · exact .upon (minds_clauseBody mind rfl nofun) fun clause => .pure .push
  · refine .neutral (Neutral.moving.accept _) fun default_ => decided (fun _ => ?_) fun _ => ?_
    · have clause : Minds (value none) (clauseBody sub .defaultClause start none) value :=
        minds_clauseBody mind rfl nofun
      exact (clause.given (.of_none _)).call fun clause => .pure .push
    · exact .neutral (Neutral.moving.expect _) fun _ => .neutral Neutral.moving.advance fun _ =>
        .pure (.refl _)

theorem minds_switchStatement (mind : Minding sub) : Minds [] (switchStatement sub) value := by
  refine .neutral neutral_tokenStart fun start => .neutral Neutral.moving.advance fun _ => ?_
  refine (minds_condition mind).call fun value => .neutral neutral_tokenStart fun blockStart => ?_
  refine .neutral (Neutral.moving.expect _) fun _ => ?_
  refine (Minds.row (minds_clauseStep mind)).call fun clauses => ?_
  refine .neutral (Neutral.moving.expect _) fun _ => ?_
  have caseBlock : Minds (constructs clauses) (add .caseBlock blockStart
      (.block (.ofNodes clauses.reverse) true)) Spot.value :=
    .addRow (P := []) rfl nofun rfl fun _ => rfl
  exact .upon caseBlock fun caseBlock => .add rfl nofun rfl fun _ => rfl

/-! ### Exceptions -/

theorem minds_catchVariable (mind : Minding sub) : Minds [] (catchVariable sub) value := by
  refine .neutral (Neutral.moving.accept _) fun found => decided (fun _ => ?_) fun _ =>
    .pure (.of_none _)
  refine .neutral neutral_tokenStart fun start => (minds_binding mind).call fun name => ?_
  exact .neutral (Neutral.moving.expect _) fun _ => .add rfl nofun rfl fun _ => rfl

theorem minds_catchClause (mind : Minding sub) : Minds [] (catchClause sub) value := by
  refine .neutral (Neutral.moving.isAt _) fun found => decided (fun _ => ?_) fun _ =>
    .pure (.of_none _)
  refine .neutral neutral_tokenStart fun start => .neutral Neutral.moving.advance fun _ => ?_
  refine (minds_catchVariable mind).call fun declaration => (minds_block mind).call fun body => ?_
  exact .add rfl nofun rfl fun _ => rfl

theorem minds_tryStatement (mind : Minding sub) : Minds [] (tryStatement sub) value := by
  refine .neutral neutral_tokenStart fun start => .neutral Neutral.moving.advance fun _ => ?_
  refine (minds_block mind).call fun tryBlock => (minds_catchClause mind).call fun clause => ?_
  refine .neutral (Neutral.moving.accept _) fun found => ?_
  refine merged <| .call (Q := construct) ?_ fun finallyBlock => ?_
  · exact either (minds_block mind) (.pure (.of_none _))
  · beta_reduce
    refine mergedWhen <| .neutral (either (Neutral.moving.expect _) (.pure _)) fun _ => ?_
    exact .add rfl nofun rfl fun _ => rfl

end PathGuard.Parser
