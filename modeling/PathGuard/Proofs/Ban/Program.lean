import PathGuard.Grammar.Program
import PathGuard.Proofs.Ban.Statement
/-!
# Modules and all phrases under the ban on `in`

A primary expression is the same with and without the ban, unless it is a class in which an `in` is
neither in brackets nor in a function: there the ban reaches the values of fields and the static
blocks.
-/

namespace PathGuard

namespace Parser

open Spot

variable {sub : PhraseParser} {start : Nat} {k : NodeKind}

/-! ### Imports -/

theorem sheltered_exportName : Sheltered exportName := by
  refine .bind neutral_kind fun k =>
    either sheltered_takeLiteral (either sheltered_identifierName ?_)
  exact sheltered_reportNone _

theorem neutral_specifierStep (specifiers : List Child) : Neutral (specifierStep k specifiers) := by
  refine neutral_kind.bind fun t => either (.pure _) (neutral_tokenStart.bind fun start => ?_)
  refine sheltered_exportName.neutral.bind fun first => either (.pure _) ?_
  refine (Neutral.moving.accept _).bind fun renamed => ?_
  extract_lets join
  have joined (names : Child × Child) : Neutral (join names) :=
    (neutral_add _ _ _).bind fun specifier =>
      (Neutral.moving.accept _).bind fun comma => either (.pure _) (.pure _)
  refine either ?_ (joined (none, first))
  exact sheltered_exportName.neutral.bind fun name => joined (first, name)

theorem sheltered_specifiers {list specifier : NodeKind}
    (shape : list.shape? = some .namedBindings) : Sheltered (specifiers list specifier) := by
  refine .bind neutral_tokenStart fun start => .bind (Neutral.moving.expect _) fun _ => ?_
  have elements : Neutral (repeating (specifierStep specifier) []) :=
    Neutral.closed.repeating neutral_textLeft neutral_specifierStep []
  refine .bind elements fun elements => ?_
  exact .bind (Neutral.moving.expect _) fun _ => .add shape rfl fun _ => rfl

theorem sheltered_moduleSpecifier : Sheltered moduleSpecifier :=
  .bind (Neutral.moving.isAt _) fun _ => either sheltered_takeLiteral (sheltered_reportNone _)

theorem neutral_importAttributes (mind : Minding sub) : Neutral (importAttributes sub) := by
  refine (Neutral.moving.isAt _).bind fun found => either ?_ (.pure ())
  refine neutral_afterLineBreak.bind fun broken => either (.pure ()) ?_
  exact Neutral.moving.advance.bind fun _ => (sheltered_objectLiteral mind).neutral.bind fun _ =>
    .pure ()

theorem sheltered_namespaceImport : Sheltered namespaceImport := by
  refine .bind neutral_tokenStart fun start => .bind Neutral.moving.advance fun _ => ?_
  refine .bind (Neutral.moving.expect _) fun _ => .bind sheltered_identifier.neutral fun name => ?_
  exact .add rfl rfl fun _ => rfl

theorem sheltered_importBindings (name : Child) : Sheltered (importBindings name) := by
  refine .bind neutral_kind fun k => ?_
  split
  · exact sheltered_namespaceImport
  · exact sheltered_specifiers rfl
  · exact either (sheltered_reportNone _) .missing

theorem sheltered_importClause : Sheltered importClause := by
  refine .bind neutral_tokenStart fun start => .bind neutral_atIdentifier fun found => ?_
  extract_lets join
  have joined (name : Child) : Sheltered (join name) := by
    have last (bindings : Child) :
        Sheltered (add .importClause start (.importClause name bindings)) :=
      .add rfl rfl fun _ => rfl
    have rest (more : Bool) : Sheltered (do
        let bindings ← if more then importBindings name else pure none
        add .importClause start (.importClause name bindings)) :=
      either (.bind (sheltered_importBindings name).neutral last) (last none)
    unfold join
    exact either (rest true) (.bind (Neutral.moving.accept _) rest)
  exact either (.bind sheltered_identifier.neutral joined) (joined none)

theorem sheltered_importDeclaration (mind : Minding sub) : Sheltered (importDeclaration sub) := by
  refine .bind neutral_tokenStart fun start => .bind Neutral.moving.advance fun _ => ?_
  refine .bind (Neutral.moving.isAt _) fun bare => ?_
  extract_lets join
  have joined (clause : Child) : Sheltered (join clause) := by
    refine .bind sheltered_moduleSpecifier.neutral fun specifier => ?_
    refine .bind (neutral_importAttributes mind) fun _ =>
      .bind Neutral.moving.endStatement fun _ => ?_
    exact .add rfl rfl fun _ => rfl
  refine either (joined none) (.bind sheltered_importClause.neutral fun clause => ?_)
  exact .bind (Neutral.moving.expect _) fun _ => joined clause

/-! ### Exports -/

theorem minds_exportAssignment (mind : Minding sub) : Minds [] (exportAssignment sub) value := by
  refine .neutral neutral_tokenStart fun start => ?_
  refine (minds_assignmentOrReport mind).call fun value => ?_
  exact .neutral Neutral.moving.endStatement fun _ => .add rfl nofun rfl fun _ => rfl

theorem minds_defaultExport (mind : Minding sub) : Minds [] (defaultExport sub) value := by
  refine .neutral neutral_kind fun k => ?_
  split
  · exact (sheltered_functionDeclaration mind true).minds
  · refine .neutral neutral_asyncFunctionAhead fun found => decided (fun _ => ?_) fun _ => ?_
    · exact (sheltered_functionDeclaration mind true).minds
    · exact minds_exportAssignment mind
  · exact minds_classOf mind true rfl nofun
  · exact minds_exportAssignment mind

theorem minds_exportAll (mind : Minding sub) :
    Minds [] (exportAll sub) fun parts => value parts.1 := by
  refine .neutral neutral_tokenStart fun start => .neutral Neutral.moving.advance fun _ => ?_
  refine .neutral (Neutral.moving.accept _) fun named => ?_
  extract_lets join
  have joined (clause : Child) : Minds (value clause) (join clause) fun parts => value parts.1 := by
    refine .neutral (Neutral.moving.expect _) fun _ => ?_
    refine .neutral sheltered_moduleSpecifier.neutral fun specifier => ?_
    refine .neutral (neutral_importAttributes mind) fun _ => ?_
    exact .neutral Neutral.moving.endStatement fun _ => .pure (.refl _)
  refine decided (fun _ => ?_) fun _ => .without joined
  refine .neutral sheltered_exportName.neutral fun name => .bind (Q := value) ?_ joined
  exact .add rfl nofun rfl fun _ => rfl

theorem minds_exportNamed (mind : Minding sub) :
    Minds [] (exportNamed sub) fun parts => value parts.1 := by
  refine (sheltered_specifiers rfl).minds.call fun clause => ?_
  refine .neutral (Neutral.moving.accept _) fun from_ => ?_
  extract_lets join
  have joined (specifier : Child) :
      Minds (value clause) (join specifier) fun parts => value parts.1 :=
    .neutral Neutral.moving.endStatement fun _ => .pure (.refl _)
  refine decided (fun _ => ?_) fun _ => joined none
  refine .neutral sheltered_moduleSpecifier.neutral fun specifier => ?_
  exact .neutral (neutral_importAttributes mind) fun _ => joined specifier

theorem minds_exportedDeclaration (mind : Minding sub) :
    Minds [] (exportedDeclaration sub) construct := by
  refine .neutral neutral_kind fun k => ?_
  split
  · exact mind.statement
  · exact mind.statement
  · exact mind.statement
  · exact mind.statement
  · exact mind.statement
  · exact mind.statement
  · exact (sheltered_reportNone _).minds.construct

theorem minds_exportDeclaration (mind : Minding sub) : Minds [] (exportDeclaration sub) value := by
  refine .neutral neutral_tokenStart fun start => .neutral Neutral.moving.advance fun _ => ?_
  refine .neutral (Neutral.moving.accept _) fun isDefault => ?_
  extract_lets join
  have joined (parts : Child × Child) : Minds (construct parts.1) (join parts) value :=
    .add rfl nofun rfl fun _ => rfl
  have weaker {act : Parser (Child × Child)} (h : Minds [] act fun parts => value parts.1) :
      Minds [] (act >>= join) value := (h.imp fun _ => .weaken).bind joined
  refine decided (fun _ => ?_) fun _ => .neutral neutral_kind fun k => ?_
  · exact (minds_defaultExport mind).construct.call fun clause => joined (clause, none)
  split
  · exact weaker (minds_exportAll mind)
  · exact weaker (minds_exportNamed mind)
  · exact (minds_exportedDeclaration mind).call fun clause => joined (clause, none)

/-! ### Statements -/

theorem minds_labeledOrExpression (mind : Minding sub) :
    Minds [] (labeledOrExpression sub) value := by
  refine .neutral neutral_atIdentifier fun named => ?_
  extract_lets join
  have joined (labeled : Bool) : Minds [] (join labeled) value := by
    unfold join
    exact either (minds_labeledStatement mind) (minds_expressionStatement mind)
  exact decided (fun _ => .neutral neutral_peek fun next => joined _) fun _ => joined false

theorem minds_statement (mind : Minding sub) : Minds [] (statement sub) construct := by
  refine .nested (.neutral neutral_kind fun k => ?_)
  split
  · exact minds_block mind
  · exact .construct sheltered_emptyStatement.minds
  · exact .construct (minds_variableStatement mind)
  · exact .construct (minds_variableStatement mind)
  · refine .neutral neutral_letDeclarationAhead fun found => decided (fun _ => ?_) fun _ => ?_
    · exact .construct (minds_variableStatement mind)
    · exact .construct (minds_labeledOrExpression mind)
  · exact .construct (Sheltered.minds (sheltered_functionDeclaration mind false))
  · refine .neutral neutral_asyncFunctionAhead fun found => decided (fun _ => ?_) fun _ => ?_
    · exact .construct (Sheltered.minds (sheltered_functionDeclaration mind false))
    · exact .construct (minds_labeledOrExpression mind)
  · exact .construct (minds_classOf mind false rfl nofun)
  · exact .construct (minds_ifStatement mind)
  · exact .construct (minds_doStatement mind)
  · exact .construct (minds_whileStatement mind)
  · exact .construct (minds_forStatement mind)
  · exact .construct (Sheltered.minds (sheltered_jumpStatement rfl))
  · exact .construct (Sheltered.minds (sheltered_jumpStatement rfl))
  · exact .construct (minds_returnOrThrow mind rfl nofun)
  · exact .construct (minds_returnOrThrow mind rfl nofun)
  · exact .construct (minds_tryStatement mind)
  · exact .construct (minds_switchStatement mind)
  · exact .construct sheltered_debuggerStatement.minds
  · refine .neutral neutral_importExpressionAhead fun found => decided (fun _ => ?_) fun _ => ?_
    · exact .construct (minds_expressionStatement mind)
    · exact .construct (Sheltered.minds (sheltered_importDeclaration mind))
  · exact .construct (minds_exportDeclaration mind)
  · exact .construct (minds_labeledOrExpression mind)

theorem minds_rule (mind : Minding sub) : Minding (rule sub) := by
  intro p
  cases p with
  | statement => exact minds_statement mind
  | assignment => exact minds_assignment mind
  | unary => exact minds_unary mind
  | binary least => exact minds_binary mind least
  | leftHandSide => exact minds_leftHandSide mind
  | newExpression => exact minds_newExpression mind
  | binding => exact minds_binding mind

theorem minding_phrase (fuel : Nat) : Minding (phrase fuel) := by
  induction fuel with
  | zero => exact fun p => .pure (.of_none _)
  | succ fuel ih => exact minds_rule ih

/-! ### Primary expressions -/

/-- Whether two runs end alike: with the same answer, and in states that differ in nothing but the
context. -/
def EndsAlike (r r' : Child × ParserState) : Prop :=
  r.1 = r'.1 ∧ { r.2 with context := r'.2.context } = r'.2

/-- Whether a run ends with a node that has a bare `in`. -/
def EndsBare (r : Child × ParserState) : Prop := ∃ i, r.1 = some i ∧ r.2.tree.HasBare i

theorem EndsAlike.problems {r r' : Child × ParserState} (h : EndsAlike r r') :
    r.2.problems = r'.2.problems := by
  rw [← h.2]

/-- A primary expression is the same where `in` is no operator as where it is one: the same node and
tree, the same problems, the same tokens read. Only a class may be another one, and it is when an `in`
stands in it that neither brackets nor the body of a function separate from it. -/
theorem primary_forbidIn (fuel : Nat) (s : ParserState) (pools : s.tree.pools.size = Shape.count) :
    let free := primary (phrase fuel) { s with context := s.context.allowIn }
    let banned := primary (phrase fuel) { s with context := s.context.forbidIn }
    (s.lexer.kind ≠ .word .classWord → EndsAlike free banned) ∧
      (EndsAlike free banned ↔ ¬EndsBare free) := by
  intro free banned
  let s₀ : ParserState := { s with context := s.context.allowIn }
  have mind := minding_phrase fuel
  have open_ := minds_primary mind s₀ pools
  have shut := minds_primary mind s₀.banned pools
  have context : banned.2.context = free.2.banned.context := by
    change banned.2.context = free.2.context.forbidIn
    rw [show banned.2.context = s.context.forbidIn from shut.kept.context,
      show free.2.context = s.context.allowIn from open_.kept.context]
    rfl
  have known : EndsAlike free banned ↔ banned = (free.1, free.2.banned) := by
    constructor
    · rintro ⟨answer, rest⟩
      refine Prod.ext answer.symm ?_
      rw [← rest, context]
      rfl
    · intro same
      rw [same]
      exact ⟨rfl, rfl⟩
  refine ⟨fun other => ?_, fun agree => ?_, fun none_ => ?_⟩
  · obtain ⟨act, sheltered, run⟩ := exists_sheltered_primary mind other
    have blind := sheltered.neutral.blind s₀
    rw [← run s₀ rfl, ← run s₀.banned rfl] at blind
    exact known.2 blind
  · rintro ⟨i, answer, bare⟩
    have clear : banned.2.tree.AllClear (value banned.1) := shut.clear rfl nofun
    rw [known.1 agree] at clear
    exact (clear _ (List.mem_singleton_self _) i answer).not_hasBare bare
  · refine known.2 (open_.same.resolve_right ?_)
    rintro ⟨p, hp, i, child, bare, -⟩
    obtain rfl := List.mem_singleton.1 hp
    exact none_ ⟨i, child, bare⟩

/-- The value of a field is not in brackets. -/
theorem primary_forbidIn_field :
    let s := (advance (.start "class \x7b x = a in o \x7d".toList)).2
    let free := primary (phrase 8) { s with context := s.context.allowIn }
    let banned := primary (phrase 8) { s with context := s.context.forbidIn }
    s.tree.pools.size = Shape.count ∧ free.2.problems = [] ∧ banned.2.problems ≠ [] ∧
      EndsBare free := by
  intro s free banned
  have pools : s.tree.pools.size = Shape.count := by decide +kernel
  have quiet : free.2.problems = [] := by decide +kernel
  have noted : banned.2.problems ≠ [] := by decide +kernel
  refine ⟨pools, quiet, noted, ?_⟩
  by_contra none_
  have alike : EndsAlike free banned := (primary_forbidIn 8 s pools).2.2 none_
  exact noted (alike.problems.symm.trans quiet)

end Parser

end PathGuard
