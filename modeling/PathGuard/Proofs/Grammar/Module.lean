import PathGuard.Grammar.Module
import PathGuard.Proofs.Grammar.Statement
/-!
# What the parsers of imports and exports make
-/

namespace PathGuard.Parser

variable {sub : PhraseParser} {at_ : TokenKind → Prop} {role : Role}

def outerNameRole : Role := .of NodeKind.isOuterName 0

theorem makes_exportName : MakesAt at_ [] exportName (one outerNameRole) := by
  refine .kind fun k _ => decided (fun string => ?_) fun _ => decided (fun word => ?_) fun _ => ?_
  · exact (makes_takeLiteral fun _ => rfl).weaken fun k' here => ⟨_, here.trans string⟩
  · refine makes_identifierName rfl (fun private_ => ?_) rfl
    rw [← private_] at word
    cases word
  · exact .idle (Idle.moving.reportHere _) fun _ => .pure (.missing rfl .nil)

def specifierRole : Role := .of NodeKind.isSpecifier 0

theorem makes_specifierStep {k : NodeKind} (ok : becomes 0 k 0 .specifier specifierRole = true)
    (specifiers : List Child) :
    Makes (row specifierRole specifiers.reverse) (specifierStep k specifiers)
      fun answer => row specifierRole answer.value.reverse := by
  refine .look looks_kind fun t => decided (fun _ => .pure (.refl _)) fun _ => ?_
  refine .look looks_tokenStart fun start => makes_exportName.call fun first => ?_
  refine decided (fun _ => .pure (.init _ _)) fun _ =>
    .idle (Idle.moving.accept _) fun renamed => ?_
  extract_lets join
  have joined (property name : Child) :
      Makes (row specifierRole specifiers.reverse ++
          (one outerNameRole property ++ one outerNameRole name)) (join (property, name))
        fun answer => row specifierRole answer.value.reverse := by
    refine .upon (Q := one specifierRole) _ (.add 0 (.flat (.flat .nil)) (fun _ => rfl) ok)
      fun specifier => .idle (Idle.moving.accept _) fun comma => ?_
    exact decided (fun _ => .pure (covers_snoc ..)) fun _ => .pure (covers_snoc ..)
  refine decided (fun _ => makes_exportName.call fun name => ?_) fun _ => ?_
  · rw [List.append_assoc]
    exact atOnce (joined first name)
  · have alone : Part.Covers (one outerNameRole first)
        (one outerNameRole none ++ one outerNameRole first) := .missing rfl (.refl _)
    exact atOnce ((joined none first).given (alone.append_left _))

theorem makes_specifiers {list specifier : NodeKind}
    (ok : becomes 0 list 0 .namedBindings role = true)
    (ok' : becomes 0 specifier 0 .specifier specifierRole = true) :
    MakesAt at_ [] (specifiers list specifier) (one role) := by
  refine .look looks_tokenStart fun start => .idle (Idle.moving.expect _) fun _ => ?_
  refine .bind (.repeating (I := fun elements => row specifierRole elements.reverse)
    (makes_specifierStep ok') []) fun elements => .idle (Idle.moving.expect _) fun _ => ?_
  exact .add 0 (.missing (.row (fun _ _ h => h) (Nat.le_refl 0) _)) (fun _ => rfl) ok

def moduleNameRole : Role := .of NodeKind.isLiteral 0

theorem makes_moduleSpecifier : MakesAt at_ [] moduleSpecifier (one moduleNameRole) := by
  refine .isAt ?_ (.idle (Idle.moving.reportHere _) fun _ => .pure (.missing rfl .nil))
  exact (makes_takeLiteral fun _ => rfl).weaken fun k here => ⟨_, here⟩

/-- Attributes are read and dropped. -/
theorem makes_importAttributes (hsub : MakesPhrases sub) :
    MakesAt at_ [] (importAttributes sub) fun _ => [] := by
  refine .look (looks_isAt _) fun found => decided (fun _ => ?_) fun _ => .pure .nil
  refine .look looks_afterLineBreak fun broken => decided (fun _ => .pure .nil) fun _ => ?_
  refine .idle Idle.moving.advance fun _ => (makes_objectLiteral hsub).call fun attributes => ?_
  exact .pure (.nothing _)

/-! ### Imports -/

theorem makes_namespaceImport (ok : becomes 0 .namespaceImport 0 .namedBindings role = true) :
    MakesAt at_ [] namespaceImport (one role) := by
  refine .look looks_tokenStart fun start => .idle Idle.moving.advance fun _ => ?_
  refine .idle (Idle.moving.expect _) fun _ => ?_
  refine .bind (Q := one (.of NodeKind.isOuterName 0)) (makes_identifier rfl rfl) fun name => ?_
  exact .add 0 (.flat .nil) (fun _ => rfl) ok

def importBindingsRole : Role := .of NodeKind.isImportBinding 0

theorem makes_importBindings (name : Child) :
    MakesAt at_ [] (importBindings name) (one importBindingsRole) := by
  refine .look looks_kind fun k => ?_
  split
  · exact makes_namespaceImport rfl
  · exact makes_specifiers rfl rfl
  · refine mergedWhen <| .idle (either (Idle.moving.reportHere _) (Idle.closed.pure _)) fun _ => ?_
    exact .pure (.missing rfl .nil)

def importClauseRole : Role := .of (· == .importClause) 0

theorem makes_importClause : MakesAt at_ [] importClause (one importClauseRole) := by
  refine .look looks_tokenStart fun start => .look looks_atIdentifier fun found => ?_
  refine merged <| .call (.optional (r := .of NodeKind.isName 0) rfl fun _ => makes_identifier rfl rfl)
    fun name => ?_
  beta_reduce
  refine merged <| .idle (either (Idle.closed.pure _) (Idle.moving.accept _)) fun more => ?_
  beta_reduce
  refine merged <| .call (.optional rfl fun _ => makes_importBindings name) fun bindings => ?_
  exact .add 0 (.flat (.flat .nil)) (fun _ => rfl) rfl

theorem makes_importDeclaration (hsub : MakesPhrases sub) :
    MakesAt at_ [] (importDeclaration sub) (one madeRole) := by
  refine .look looks_tokenStart fun start => .idle Idle.moving.advance fun _ => ?_
  refine .look (looks_isAt _) fun bare => ?_
  extract_lets join
  have joined (clause : Child) :
      Makes (one importClauseRole clause) (join clause) (one madeRole) := by
    refine makes_moduleSpecifier.call fun specifier => ?_
    refine (makes_importAttributes hsub).call fun _ => .idle Idle.moving.endStatement fun _ => ?_
    exact .add 0 (.flat (.flat .nil)) (fun _ => rfl) rfl
  refine decided (fun _ => .without rfl joined) fun _ => makes_importClause.call fun clause => ?_
  exact .idle (Idle.moving.expect _) fun _ => atOnce (joined clause)

/-! ### Exports -/

def exportedRole : Role := .of NodeKind.isExported 1

theorem makes_exportAssignment (hsub : MakesPhrases sub) :
    MakesAt at_ [] (exportAssignment sub) (one exportedRole) := by
  refine .look looks_tokenStart fun start => (makes_assignmentOrReport hsub).call fun value => ?_
  exact .idle Idle.moving.endStatement fun _ => .add 0 (.flat .nil) (fun _ => rfl) rfl

theorem makes_defaultExport (hsub : MakesPhrases sub) :
    MakesAt at_ [] (defaultExport sub) (one exportedRole) := by
  refine .look looks_kind fun k => ?_
  split
  · exact makes_functionDeclaration hsub true rfl
  · refine .look looks_asyncFunctionAhead fun found => ?_
    refine decided (fun _ => makes_functionDeclaration hsub true rfl) fun _ => ?_
    exact makes_exportAssignment hsub
  · exact makes_classOf hsub true rfl
  · exact makes_exportAssignment hsub

def exportParts (parts : Child × Child) : List Part :=
  one exportedRole parts.1 ++ one moduleNameRole parts.2

theorem makes_exportAll (hsub : MakesPhrases sub) :
    MakesAt at_ [] (exportAll sub) exportParts := by
  refine .look looks_tokenStart fun start => .idle Idle.moving.advance fun _ => ?_
  refine .idle (Idle.moving.accept _) fun named => ?_
  extract_lets join
  have joined (clause : Child) : Makes (one exportedRole clause) (join clause) exportParts := by
    refine .idle (Idle.moving.expect _) fun _ => makes_moduleSpecifier.call fun specifier => ?_
    refine (makes_importAttributes hsub).call fun _ => .idle Idle.moving.endStatement fun _ => ?_
    exact .pure (.refl _)
  refine decided (fun _ => makes_exportName.call fun name => ?_) fun _ => .without rfl joined
  refine .bind (Q := one exportedRole) ?_ joined
  exact .add 0 (.flat .nil) (fun _ => rfl) rfl

theorem makes_exportNamed (hsub : MakesPhrases sub) :
    MakesAt at_ [] (exportNamed sub) exportParts := by
  refine .bind (Q := one exportedRole) (makes_specifiers rfl rfl) fun clause => ?_
  refine .idle (Idle.moving.accept _) fun from_ => ?_
  extract_lets join
  have joined (specifier : Child) :
      Makes (one exportedRole clause ++ one moduleNameRole specifier) (join specifier)
        exportParts := .idle Idle.moving.endStatement fun _ => .pure (.refl _)
  refine decided (fun _ => makes_moduleSpecifier.call fun specifier => ?_) fun _ => ?_
  · exact (makes_importAttributes hsub).call fun _ => atOnce (joined specifier)
  · exact .without rfl joined

theorem makes_exportedDeclaration (hsub : MakesPhrases sub) :
    MakesAt at_ [] (exportedDeclaration sub) (one exportedRole) := by
  have statement : Makes [] (sub .statement) (one exportedRole) := by
    refine (hsub .statement).imp fun child => .keep ⟨rfl, fun k _ h => ?_, Nat.zero_le 1, .inl⟩ .nil
    have isStatement : k.isStatement = true := h
    simp [exportedRole, Role.of, NodeKind.isExported, isStatement]
  refine .look looks_kind fun k => ?_
  split
  · exact statement.any
  · exact statement.any
  · exact statement.any
  · exact statement.any
  · exact statement.any
  · exact statement.any
  · exact .idle (Idle.moving.reportHere _) fun _ => .pure (.missing rfl .nil)

theorem makes_exportDeclaration (hsub : MakesPhrases sub) :
    MakesAt at_ [] (exportDeclaration sub) (one madeRole) := by
  refine .look looks_tokenStart fun start => .idle Idle.moving.advance fun _ => ?_
  refine .idle (Idle.moving.accept _) fun isDefault => ?_
  extract_lets join
  have joined (parts : Child × Child) : Makes (exportParts parts) (join parts) (one madeRole) :=
    .add 1 (.same (Nat.le_refl 1) (.flat .nil)) (fun _ => rfl) rfl
  have alone (clause : Child) : Makes (one exportedRole clause) (join (clause, none))
      (one madeRole) := by
    refine (joined (clause, none)).given ?_
    exact .keep (.refl _) (.missing rfl .nil)
  refine decided (fun _ => ?_) fun _ => .look looks_kind fun k => ?_
  · exact (makes_defaultExport hsub).call fun clause => atOnce (alone clause)
  split
  · exact (makes_exportAll hsub).call joined
  · exact (makes_exportNamed hsub).call joined
  · exact (makes_exportedDeclaration hsub).call fun clause => atOnce (alone clause)

end PathGuard.Parser
