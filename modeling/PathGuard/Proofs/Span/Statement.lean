import PathGuard.Proofs.Grammar.Reading
import PathGuard.Proofs.Grammar.Statement
import PathGuard.Proofs.Span.Operator
/-!
# Where statements lie
-/

namespace PathGuard.Parser

open Item

variable {x : Setting} {ready : Bool} {at_ : Lexer → Prop} {sub : PhraseParser} {start : Nat}
  {k : NodeKind}

/-! ### Variables -/

theorem lays_variableDeclaration (hsub : LaysPhrases x sub) :
    LaysAt x ready at_ [] (variableDeclaration sub) (single .firm) := by
  refine .mark fun start => (lays_binding hsub).call fun name => ?_
  refine decided (fun none_ => .pureNone none_ (.drop (.refl _))) fun _ => ?_
  refine (lays_initializer hsub).call fun value => ?_
  exact .add rfl (.must rfl (.may .nil)) rfl rfl

theorem lays_declarationStep (hsub : LaysPhrases x sub) (declarations : List Child) :
    Lays x ready (several .firm declarations.reverse) (declarationStep sub declarations)
      fun answer => several .firm answer.value.reverse := by
  refine (lays_variableDeclaration hsub).call fun declaration => ?_
  refine decided (fun _ => .pure (.init _ _)) fun _ =>
    .steady (Steady.moving.accept _) fun comma => ?_
  exact decided (fun _ => .pure (.snoc ..)) fun _ => .pure (.snoc ..)

theorem lays_variableDeclarationList (hsub : LaysPhrases x sub) (notEnd : ∀ l, at_ l → NotEnd l) :
    LaysAt x ready at_ [] (variableDeclarationList sub) (single .firm) := by
  refine .mark fun start => .look looks_kind fun k => .advance (fun l here => notEnd l here.1) ?_
  refine .call (Q := fun (declarations : List Child) => several .firm declarations.reverse)
    (.repeating (I := fun declarations => several .firm declarations.reverse)
      (lays_declarationStep hsub) []) fun declarations => ?_
  have fills : Item.Fills
      (several .firm declarations.reverse ++ [.note !decide (declarations.isEmpty = true)])
      (Record.rowPlaces declarations.reverse) := by
    rw [← List.append_nil (Record.rowPlaces _)]
    exact .append (.several rfl _) (.skip rfl .nil)
  refine .reportWhen (.imp (.addWhole rfl fills rfl fun parts notes => ⟨parts, fun _ => ?_, ?_⟩)
    fun _ => .drop (.refl _))
  · have there : (!decide (declarations.isEmpty = true)) = true :=
      notes _ (List.mem_append_right _ (List.mem_singleton_self _))
    simpa [Record.places, Record.rowPlaces, NodeList.ofNodes] using there
  · rintro _ _ ⟨⟩

theorem lays_variableStatement (hsub : LaysPhrases x sub) (notEnd : ∀ l, at_ l → NotEnd l) :
    LaysAt x ready at_ [] (variableStatement sub) (single .firm) := by
  refine .mark fun start => ?_
  refine (lays_variableDeclarationList hsub fun l here => notEnd l here.1).call fun list => ?_
  exact .steady Steady.moving.endStatement fun _ => .add rfl (.must rfl .nil) rfl rfl

/-! ### Simple statements -/

theorem lays_emptyStatement (notEnd : ∀ l, at_ l → NotEnd l) :
    LaysAt x ready at_ [] emptyStatement (single .firm) :=
  .mark fun _ => .advance (fun l here => notEnd l here.1) (.addBare rfl)

theorem lays_debuggerStatement (notEnd : ∀ l, at_ l → NotEnd l) :
    LaysAt x ready at_ [] debuggerStatement (single .firm) := by
  refine .mark fun start => .advance (fun l here => notEnd l here.1) ?_
  exact .steady Steady.moving.endStatement fun _ => .addBare rfl

theorem lays_expressionStatement (hsub : LaysPhrases x sub) :
    LaysAt x true at_ [] (expressionStatement sub) (single .firm) := by
  refine .mark fun start => (lays_expression hsub).call fun value => ?_
  refine decided (fun none_ => .pureNone none_ (.drop (.refl _))) fun _ => ?_
  exact .steady Steady.moving.endStatement fun _ => .add rfl (.must rfl .nil) rfl rfl

theorem lays_labeledStatement (hsub : LaysPhrases x sub) :
    LaysAt x ready at_ [] (labeledStatement sub) (single .firm) := by
  refine .mark fun start => lays_identifier.call fun label => .expectMark ?_
  refine (hsub .statement).any.call fun statement => ?_
  exact .add rfl (.must rfl (.must rfl .nil)) rfl rfl

theorem lays_jumpStatement (shape : k.shape? = some .jump)
    (plain : (k != .variableDeclarationList) = true) (notEnd : ∀ l, at_ l → NotEnd l) :
    LaysAt x ready at_ [] (jumpStatement k) (single .firm) := by
  refine .mark fun start => .advance (fun l here => notEnd l here.1) ?_
  refine .look looks_atIdentifier fun found => ?_
  extract_lets withLabel withLabeled
  have joined (labeled : Bool) : Lays x true [.mark start true] (withLabeled labeled)
      (single .firm) := by
    unfold withLabeled
    refine merged <| .call (.optional (g := .loose) rfl fun _ => ?_) fun label =>
      .steady Steady.moving.endStatement fun _ => ?_
    · exact lays_identifier.imp fun _ => .loose .nil
    · exact .add shape (.may .nil) rfl plain
  refine decided (fun _ => ?_) fun _ => atOnce (joined false)
  exact .look looks_afterLineBreak fun broken => atOnce (joined _)

theorem lays_returnOrThrow (hsub : LaysPhrases x sub) (shape : k.shape? = some .returnOrThrow)
    (plain : (k != .variableDeclarationList) = true) (notEnd : ∀ l, at_ l → NotEnd l) :
    LaysAt x ready at_ [] (returnOrThrow sub k) (single .firm) := by
  refine .mark fun start => .advance (fun l here => notEnd l here.1) ?_
  refine .look looks_atStatementEnd fun ends => ?_
  refine merged <| .call (Q := single .loose) ?_ fun value => ?_
  · exact either (.pure (.missing rfl .nil)) ((lays_expression hsub).imp fun _ => .loose .nil)
  · exact .steady Steady.moving.endStatement fun _ => .add shape (.may .nil) rfl plain

/-! ### Choices and loops -/

theorem lays_condition (hsub : LaysPhrases x sub) :
    LaysAt x ready at_ [] (condition sub) (single .firm) := by
  refine .expectMark ((lays_expression hsub).call fun value => ?_)
  exact .steady (Steady.moving.expect _) fun _ => .pure (.refl _)

theorem lays_ifStatement (hsub : LaysPhrases x sub) (notEnd : ∀ l, at_ l → NotEnd l) :
    LaysAt x ready at_ [] (ifStatement sub) (single .firm) := by
  refine .mark fun start => .advance (fun l here => notEnd l here.1) ?_
  refine (lays_condition hsub).call fun test => (hsub .statement).any.call fun thenStatement => ?_
  refine .steady (Steady.moving.accept _) fun found => ?_
  refine merged <| .call (.optional (g := .loose) rfl fun _ => ?_) fun elseStatement => ?_
  · exact (hsub .statement).any.imp fun _ => .loose .nil
  · exact .add rfl (.must rfl (.must rfl (.may .nil))) rfl rfl

theorem lays_doStatement (hsub : LaysPhrases x sub) (notEnd : ∀ l, at_ l → NotEnd l) :
    LaysAt x ready at_ [] (doStatement sub) (single .firm) := by
  refine .mark fun start => .advance (fun l here => notEnd l here.1) ?_
  refine (hsub .statement).any.call fun statement => .expectWord ?_
  refine (lays_condition hsub).call fun test => .steady (Steady.moving.accept _) fun _ => ?_
  exact .add rfl (.must rfl (.must rfl .nil)) rfl rfl

theorem lays_whileStatement (hsub : LaysPhrases x sub) (notEnd : ∀ l, at_ l → NotEnd l) :
    LaysAt x ready at_ [] (whileStatement sub) (single .firm) := by
  refine .mark fun start => .advance (fun l here => notEnd l here.1) ?_
  refine (lays_condition hsub).call fun test => (hsub .statement).any.call fun statement => ?_
  exact .add rfl (.missing (.must rfl (.missing (.must rfl .nil)))) rfl rfl

/-! ### `for` -/

theorem notEnd_of_atVariables (s : ParserState) (found : (atVariables s).1 = true) :
    NotEnd s.lexer := by
  intro ended
  have kind : Parser.kind s = (.endOfFile, s) := by rw [← ended]; rfl
  rw [atVariables, run_bind kind] at found
  cases found

/-- What a `for` begins with. It is left out only before a semicolon. -/
theorem LaysAt.forInitializer {β : Type} {P : List Item} {next : Child → Parser β}
    {R : β → List Item} (hsub : LaysPhrases x sub)
    (nothing : LaysAt x true (fun l => l.kind = .mark .semicolon) P (next none) R)
    (then_ : ∀ initial, Lays x true (P ++ single .firm initial) (next initial) R) :
    LaysAt x true at_ P (Parser.forInitializer sub >>= next) R := by
  unfold Parser.forInitializer
  rw [bind_assoc]
  refine .isAt ?_ ?_
  · exact atOnce (nothing.at' fun l here => here.2)
  · rw [if_neg Bool.false_ne_true]
    refine .call (Q := single .firm) ?_ then_
    refine .ask looks_atVariables notEnd_of_atVariables ?_ ?_
    · exact .within _ (lays_variableDeclarationList hsub fun l here => here.2)
    · exact .within _ (lays_expression hsub)

theorem lays_forMembers (hsub : LaysPhrases x sub) {initial value : Child} (isAwait : Bool)
    (shape : k.shape? = some .forInOf) (plain : (k != .variableDeclarationList) = true) :
    LaysAt x ready at_ [.mark start true, .piece initial .firm, .piece value .firm]
      (forMembers sub k start isAwait initial value) (single .firm) := by
  refine .expectMark ((hsub .statement).any.call fun statement => ?_)
  exact .add shape (.must rfl (.must rfl (.must rfl .nil))) rfl plain

theorem lays_forPart (hsub : LaysPhrases x sub) (stop : Punctuator) :
    LaysAt x true at_ [] (forPart sub stop) (single .loose) := by
  refine .look (looks_isAt _) fun nothing =>
    decided (fun _ => .pure (.missing rfl .nil)) fun _ => ?_
  exact .within _ ((lays_expression hsub).imp fun _ => .loose .nil)

theorem lays_forCondition (hsub : LaysPhrases x sub) {initial : Child} :
    LaysAt x ready at_ [.mark start true, .piece initial .loose]
      (forCondition sub start initial) (single .firm) := by
  refine .expectMark ((lays_forPart hsub _).call fun test => ?_)
  refine .expectMark ((lays_forPart hsub _).call fun next => ?_)
  refine .expectMark ((hsub .statement).any.call fun statement => ?_)
  exact .add rfl (.may (.may (.may (.must rfl .nil)))) rfl rfl

theorem lays_forStatement (hsub : LaysPhrases x sub) (notEnd : ∀ l, at_ l → NotEnd l) :
    LaysAt x ready at_ [] (forStatement sub) (single .firm) := by
  refine .mark fun start => .advance (fun l here => notEnd l here.1) ?_
  refine .steady (Steady.moving.accept _) fun isAwait =>
    .expectMark (.forInitializer hsub ?_ fun initial => ?_)
  · refine .decline (fun l here => by simp [here]) (.decline (fun l here => by simp [here]) ?_)
    exact (lays_forCondition hsub).given (.keep (.missing rfl .nil))
  refine .acceptWord ?_ (.acceptWord ?_ ?_)
  · refine .call (.within _ (lays_assignmentOrReport hsub)) fun value => ?_
    exact lays_forMembers hsub isAwait rfl rfl
  · refine .call (.within _ (lays_expression hsub)) fun value => ?_
    exact lays_forMembers hsub isAwait rfl rfl
  · exact (lays_forCondition hsub).given (.keep (.loose .nil))

/-! ### `switch` -/

theorem lays_clauseBody (hsub : LaysPhrases x sub) {value : Child} {Θ : List Item}
    (head : Item.Fills Θ [(value, k == .caseClause)]) (shape : k.shape? = some .caseClause)
    (plain : (k != .variableDeclarationList) = true) :
    LaysAt x ready at_ (.mark start true :: Θ) (clauseBody sub k start value) (single .firm) := by
  refine .expectMark (.given ?_ (.of_pass _))
  refine (lays_statementList hsub _).call fun statements => ?_
  exact .add shape (head.append (.several rfl _)) rfl plain

theorem lays_clauseStep (hsub : LaysPhrases x sub) (clauses : List Child) :
    Lays x ready (several .firm clauses.reverse) (clauseStep sub clauses)
      fun answer => several .firm answer.value.reverse := by
  refine .look looks_kind fun k => decided (fun _ => .pure (.refl _)) fun _ => .mark fun start => ?_
  have passed : (several .firm clauses.reverse ++ [Item.mark start false]).map pass =
      several .firm clauses.reverse ++ [Item.mark start true] := by
    rw [List.map_append, several_pass]
    rfl
  refine .acceptWord ?_ (.acceptWord ?_ ?_)
  · rw [passed]
    refine (lays_expression hsub).call fun value => ?_
    rw [List.append_assoc]
    exact .upon _ (lays_clauseBody hsub (.must rfl .nil) rfl rfl) fun clause => .pure (.snoc ..)
  · rw [passed]
    exact .upon _ (lays_clauseBody hsub (.missing .nil) rfl rfl) fun clause => .pure (.snoc ..)
  · exact .steady (Steady.moving.expect _) fun _ => .steady Steady.moving.advance fun _ =>
      .pure (.init _ _)

theorem lays_switchStatement (hsub : LaysPhrases x sub) (notEnd : ∀ l, at_ l → NotEnd l) :
    LaysAt x ready at_ [] (switchStatement sub) (single .firm) := by
  refine .mark fun start => .advance (fun l here => notEnd l here.1) ?_
  refine (lays_condition hsub).call fun value => .mark fun blockStart => .expectMark ?_
  refine .call (Q := fun (clauses : List Child) => several .firm clauses.reverse)
    (.repeating (I := fun clauses => several .firm clauses.reverse) (lays_clauseStep hsub) [])
    fun clauses => .steady (Steady.moving.expect _) fun _ => ?_
  refine .upon [.mark start true, .piece value .firm] (.add rfl (.several rfl _) rfl rfl)
    fun caseBlock => ?_
  exact .add rfl (.must rfl (.must rfl .nil)) rfl rfl

/-! ### Exceptions -/

theorem lays_catchVariable (hsub : LaysPhrases x sub) :
    LaysAt x ready at_ [] (catchVariable sub) (single .loose) := by
  refine .acceptMark ?_ (.pure (.missing rfl .nil))
  refine .mark fun start => (lays_binding hsub).call fun name => .expectMark ?_
  exact (LaysAt.add rfl (.must rfl (.missing .nil)) rfl rfl).imp fun _ => .loose .nil

theorem lays_catchClause (hsub : LaysPhrases x sub) :
    LaysAt x ready at_ [] (catchClause sub) (single .loose) := by
  refine .isAt (.mark fun start => ?_) (.pure (.missing rfl .nil))
  refine .advance (fun l here => notEnd_word here.1.2) ?_
  refine (lays_catchVariable hsub).call fun declaration => (lays_block hsub).call fun body => ?_
  exact (LaysAt.add rfl (.may (.must rfl .nil)) rfl rfl).imp fun _ => .loose .nil

theorem lays_tryStatement (hsub : LaysPhrases x sub) (notEnd : ∀ l, at_ l → NotEnd l) :
    LaysAt x ready at_ [] (tryStatement sub) (single .firm) := by
  refine .mark fun start => .advance (fun l here => notEnd l here.1) ?_
  refine (lays_block hsub).call fun tryBlock => (lays_catchClause hsub).call fun clause => ?_
  refine .steady (Steady.moving.accept _) fun found => ?_
  refine merged <| .call (.optional (g := .loose) rfl fun _ => ?_) fun finallyBlock => ?_
  · exact (lays_block hsub).imp fun _ => .loose .nil
  · beta_reduce
    refine mergedWhen <|
      .steady (either (Steady.moving.expect _) (Steady.closed.pure _)) fun _ => ?_
    exact .add rfl (.must rfl (.may (.may .nil))) rfl rfl

end PathGuard.Parser
