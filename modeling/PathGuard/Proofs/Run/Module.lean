import PathGuard.Grammar.Module
import PathGuard.Proofs.Run.Statement
/-!
# Running imports and exports
-/

namespace PathGuard.Parser

open Known

variable {x : Room} {ready : Bool} {at_ : Lexer → Prop} {sub sub' : PhraseParser} {start : Nat}
  {k : NodeKind}

/-! ### What both have -/

theorem runs_exportName : RunsAt x ready at_ [] exportName exportName plain := by
  refine .kind fun k => .ite (fun string => ?_) fun _ => .ite (fun _ => ?_) fun _ => ?_
  · exact .of_passes (passes_takeLiteral fun l here => ⟨_, here.2.trans string⟩)
  · exact .unmarked runs_identifierName
  · exact runs_reportNone

theorem runs_specifierStep (ordinary : k.isOrdinary = true) (specifiers : List Child) (n : Nat) :
    Runs x ready [.since n false] (specifierStep k specifiers) (specifierStep k specifiers)
      (stepped (fun _ => []) n) := by
  refine .look looks_kind fun t => .ite (fun _ => .pure .nil) fun _ => ?_
  refine .look looks_tokenStart fun start => .steady (runs_exportName.imp fun _ => .nil) fun first => ?_
  refine .ite (fun _ => .pure .nil) fun _ => .steady (runs_acceptWord _) fun renamed => ?_
  extract_lets join
  have joined {property name : Child} : Runs x ready [.since n false] (join (property, name))
      (join (property, name)) (stepped (fun _ => []) n) := by
    refine .steady ((RunsAt.add ordinary).imp fun _ => .nil) fun specifier => ?_
    exact .acceptMark (.pure (.subset (by simp))) (.pure .nil)
  refine .ite (fun _ => ?_) fun _ => .known joined
  exact .steady (runs_exportName.imp fun _ => .nil) fun name => .known joined

theorem runs_specifiers {list specifier : NodeKind} (ordinary : list.isOrdinary = true)
    (ordinary' : specifier.isOrdinary = true) :
    RunsAt x ready at_ [] (specifiers list specifier) (specifiers list specifier) plain := by
  refine .look looks_tokenStart fun start => .steady (runs_expectMark _) fun _ => ?_
  refine .steady (.repeatingPlain (runs_specifierStep ordinary') []) fun elements => ?_
  exact .steady (runs_expectMark _) fun _ => .add ordinary

theorem runs_moduleSpecifier : RunsAt x ready at_ [] moduleSpecifier moduleSpecifier plain :=
  .isAt (.of_passes (passes_takeLiteral fun _ here => ⟨_, here.2⟩)) runs_reportNone

theorem runs_importAttributes (tied : Tied x sub sub') :
    RunsAt x ready at_ [] (importAttributes sub) (importAttributes sub') fun _ => [] := by
  refine .isAt (.look looks_afterLineBreak fun broken => .ite (fun _ => .pure .nil) fun _ => ?_)
    (.pure .nil)
  refine .advance (fun l here => notEnd_word here.2) ?_
  exact (runs_objectLiteral tied (.inl rfl)).call fun attributes => .pure .nil

/-! ### Imports -/

theorem runs_namespaceImport (notEnd : ∀ l, at_ l → NotEnd l) :
    RunsAt x ready at_ [] namespaceImport namespaceImport plain := by
  refine .look looks_tokenStart fun start => .advance notEnd (.steady (runs_expectWord _) fun _ => ?_)
  exact runs_identifier.call fun name => .add rfl

theorem runs_importBindings (name : Child) :
    RunsAt x ready at_ [] (importBindings name) (importBindings name) plain := by
  refine .kind fun k => ?_
  split
  · exact runs_namespaceImport fun l here => notEnd_mark here.2
  · exact runs_specifiers rfl rfl
  · exact .mergedWhen <| .steady (.ite (fun _ => runs_reportHere _) fun _ => .pure .nil) fun _ =>
      .pure .plain_none

theorem runs_importClause : RunsAt x ready at_ [] importClause importClause plain := by
  refine .look looks_tokenStart fun start => .look looks_atIdentifier fun found => ?_
  refine .merged <| .steady (.ite (fun _ => ?_) fun _ => .pure .nil) fun name => ?_
  · exact runs_identifier.imp fun _ => .nil
  refine .merged <| .steady (.ite (fun _ => .pure .nil) fun _ => runs_acceptMark _) fun more => ?_
  refine .merged <| .steady (.ite (fun _ => ?_) fun _ => .pure .nil) fun bindings => .add rfl
  exact (runs_importBindings name).imp fun _ => .nil

theorem runs_importDeclaration (tied : Tied x sub sub') (notEnd : ∀ l, at_ l → NotEnd l) :
    RunsAt x ready at_ [] (importDeclaration sub) (importDeclaration sub') plain := by
  refine .look looks_tokenStart fun start => .advance notEnd (.look (looks_isAt _) fun bare => ?_)
  extract_lets join join'
  have joined (clause : Child) (P : List Known) : Runs x true P (join clause) (join' clause) plain := by
    refine .steady (runs_moduleSpecifier.imp fun _ => .nil) fun specifier => ?_
    refine .steady (runs_importAttributes tied) fun _ => .steady runs_endStatement fun _ => ?_
    exact .add rfl
  refine .ite (fun _ => .known (joined none _)) fun _ => runs_importClause.call fun clause => ?_
  exact .steady (runs_expectWord _) fun _ => .known (joined clause _)

/-! ### Exports -/

theorem runs_exportAssignment (tied : Tied x sub sub') :
    RunsAt x true at_ [] (exportAssignment sub) (exportAssignment sub') plain := by
  refine .look looks_tokenStart fun start => ?_
  refine .steady ((runs_assignmentOrReport tied).imp fun _ => .nil) fun value => ?_
  exact .steady runs_endStatement fun _ => .add rfl

theorem runs_defaultExport (tied : Tied x sub sub') :
    RunsAt x true at_ [] (defaultExport sub) (defaultExport sub') plain := by
  refine .kind fun k => ?_
  split
  · exact runs_functionDeclaration tied true
  · refine .look looks_asyncFunctionAhead fun found => ?_
    exact .ite (fun _ => runs_functionDeclaration tied true) fun _ => runs_exportAssignment tied
  · exact runs_classOf tied true (fun l here => here.2) rfl
  · exact runs_exportAssignment tied

theorem runs_exportAll (tied : Tied x sub sub') (notEnd : ∀ l, at_ l → NotEnd l) :
    RunsAt x ready at_ [] (exportAll sub) (exportAll sub') fun _ => [] := by
  refine .look looks_tokenStart fun start => .advance notEnd ?_
  extract_lets join join'
  have joined (clause : Child) (P : List Known) : Runs x true P (join clause) (join' clause)
      fun _ => [] := by
    refine .steady (runs_expectWord _) fun _ => ?_
    refine .steady (runs_moduleSpecifier.imp fun _ => .nil) fun specifier => ?_
    refine .steady (runs_importAttributes tied) fun _ => .steady runs_endStatement fun _ => ?_
    exact .pure .nil
  refine .acceptWord (runs_exportName.call fun name => ?_) (.known (joined none _).any)
  exact .bind (Q := plain) (.add rfl) fun clause => joined clause _

theorem runs_exportNamed (tied : Tied x sub sub') :
    RunsAt x ready at_ [] (exportNamed sub) (exportNamed sub') fun _ => [] := by
  refine .steady ((runs_specifiers rfl rfl).imp fun _ => .nil) fun clause => ?_
  refine .steady (runs_acceptWord _) fun from_ => ?_
  extract_lets join
  have joined (specifier : Child) (P : List Known) :
      Runs x ready P (join specifier) (join specifier) fun _ => [] :=
    .steady runs_endStatement fun _ => .pure .nil
  refine .ite (fun _ => runs_moduleSpecifier.call fun specifier => ?_) fun _ => .known (joined none _)
  exact .steady (runs_importAttributes tied) fun _ => .known (joined specifier _)

theorem runs_exportedDeclaration (tied : Tied x sub sub') :
    RunsAt x true at_ [] (exportedDeclaration sub) (exportedDeclaration sub') fun _ => [] := by
  refine .look looks_kind fun k => ?_
  split
  · exact runs_statement_sub tied
  · exact runs_statement_sub tied
  · exact runs_statement_sub tied
  · exact runs_statement_sub tied
  · exact runs_statement_sub tied
  · exact runs_statement_sub tied
  · exact runs_reportNone.imp fun _ => .nil

theorem runs_exportDeclaration (tied : Tied x sub sub') (notEnd : ∀ l, at_ l → NotEnd l) :
    RunsAt x ready at_ [] (exportDeclaration sub) (exportDeclaration sub') plain := by
  refine .look looks_tokenStart fun start => .advance notEnd ?_
  refine .steady (runs_acceptWord _) fun isDefault => ?_
  extract_lets join
  have joined (parts : Child × Child) (P : List Known) :
      Runs x true P (join parts) (join parts) plain := .add rfl
  refine .ite (fun _ => ?_) fun _ => .kind fun k => ?_
  · exact (runs_defaultExport tied).call fun clause => .known (joined (clause, none) _)
  split
  · exact (runs_exportAll tied fun l here => notEnd_mark here.2).call fun parts => joined parts _
  · exact (runs_exportNamed tied).call fun parts => joined parts _
  · exact (runs_exportedDeclaration tied).call fun clause => .known (joined (clause, none) _)

end PathGuard.Parser
