import PathGuard.Grammar.Module
import PathGuard.Proofs.Span.Statement
/-!
# Where imports and exports lie
-/

namespace PathGuard.Parser

open Item

variable {x : Setting} {ready : Bool} {at_ : Lexer → Prop} {sub : PhraseParser} {start : Nat}
  {k : NodeKind}

/-! ### What both have -/

theorem lays_exportName : LaysAt x ready at_ [] exportName (single .firm) := by
  refine .kind fun k _ => decided (fun string => ?_) fun _ => decided (fun _ => ?_) fun _ => ?_
  · exact lays_takeLiteral fun l here => ⟨_, here.2.trans string⟩
  · exact lays_identifierName
  · exact lays_reportNone

theorem lays_specifierStep (shape : k.shape? = some .specifier)
    (plain : (k != .variableDeclarationList) = true) (specifiers : List Child) :
    Lays x ready (several .firm specifiers.reverse) (specifierStep k specifiers)
      fun answer => several .firm answer.value.reverse := by
  refine .look looks_kind fun t => decided (fun _ => .pure (.refl _)) fun _ => .mark fun start => ?_
  refine lays_exportName.call fun first => ?_
  rw [List.append_assoc]
  refine decided (fun _ => .pure (.init _ _)) fun _ =>
    .steady (Steady.moving.accept _) fun renamed => ?_
  extract_lets join
  have joined {property name : Child} : Lays x ready
      (several .firm specifiers.reverse ++
        [Item.mark start false, .piece property .loose, .piece name .firm]) (join (property, name))
      fun answer => several .firm answer.value.reverse := by
    refine .upon _ (.add shape (.may (.must rfl .nil)) rfl plain) fun specifier => ?_
    refine .steady (Steady.moving.accept _) fun comma => ?_
    exact decided (fun _ => .pure (.snoc ..)) fun _ => .pure (.snoc ..)
  refine decided (fun _ => lays_exportName.call fun name => ?_) fun _ => ?_
  · rw [List.append_assoc]
    exact atOnce (joined.given (.append_left _ (.keep (.loose (.refl _)))))
  · exact atOnce (joined.given (.append_left _ (.keep (.missing rfl (.refl _)))))

theorem lays_specifiers {list specifier : NodeKind} (shape : list.shape? = some .namedBindings)
    (plain : (list != .variableDeclarationList) = true) (shape' : specifier.shape? = some .specifier)
    (plain' : (specifier != .variableDeclarationList) = true) :
    LaysAt x ready at_ [] (specifiers list specifier) (single .firm) := by
  refine .mark fun start => .expectMark ?_
  refine .call (Q := fun (elements : List Child) => several .firm elements.reverse)
    (.repeating (I := fun elements => several .firm elements.reverse)
      (lays_specifierStep shape' plain') []) fun elements => .steady (Steady.moving.expect _) fun _ => ?_
  exact .add shape (.missing (.several rfl _)) rfl plain

theorem lays_moduleSpecifier : LaysAt x ready at_ [] moduleSpecifier (single .firm) :=
  .isAt (lays_takeLiteral fun _ here => ⟨_, here.2⟩) lays_reportNone

theorem lays_importAttributes (hsub : LaysPhrases x sub) :
    LaysAt x ready at_ [] (importAttributes sub) fun _ => [] := by
  refine .look (looks_isAt _) fun found => decided (fun _ => ?_) fun _ => .pure .nil
  refine .look looks_afterLineBreak fun broken => decided (fun _ => .pure .nil) fun _ => ?_
  refine .steady Steady.moving.advance fun _ => (lays_objectLiteral hsub).call fun attributes => ?_
  exact .pure (.nothing _)

/-! ### Imports -/

theorem lays_namespaceImport (notEnd : ∀ l, at_ l → NotEnd l) :
    LaysAt x ready at_ [] namespaceImport (single .firm) := by
  refine .mark fun start => .advance (fun l here => notEnd l here.1) (.expectWord ?_)
  exact lays_identifier.call fun name => .add rfl (.may .nil) rfl rfl

theorem lays_importBindings {name : Child} {g : Grade}
    (needed : g.sure = true → name.isNone = true) :
    LaysAt x ready at_ [] (importBindings name) (single g) := by
  have firm (node : Child) : Covers (single .firm node) (single g node) :=
    .weaken (fun _ => rfl) (fun _ => rfl) .nil
  refine .kind fun k _ => ?_
  split
  · exact (lays_namespaceImport fun l here => notEnd_mark here.2).imp firm
  · exact (lays_specifiers rfl rfl rfl rfl).imp firm
  · refine decided (fun _ => lays_reportNone) fun there => .pure (.missing ?_ .nil)
    exact Bool.eq_false_iff.2 fun sure => there (needed sure)

/-- An import of nothing is a problem, so what is imported takes characters. -/
theorem lays_importClause : LaysAt x ready at_ [] importClause (single .firm) := by
  refine .mark fun start => .look looks_atIdentifier fun found => ?_
  refine decided (fun _ => lays_identifier.call fun name => ?_) fun _ => atOnce ?_
  · beta_reduce
    refine merged <| .steady (either (Steady.closed.pure _) (Steady.moving.accept _)) fun more => ?_
    beta_reduce
    refine merged <| .call (.optional (g := .loose) rfl fun _ => ?_) fun bindings => ?_
    · exact lays_importBindings fun sure => Bool.noConfusion sure
    · exact .add rfl (.may (.may .nil)) rfl rfl
  · beta_reduce
    rw [Option.isNone_none, if_pos rfl]
    refine atOnce ?_
    refine (lays_importBindings (g := .firm) fun _ => rfl).call fun bindings => ?_
    exact .add rfl (.missing (.may .nil)) rfl rfl

theorem lays_importDeclaration (hsub : LaysPhrases x sub) (notEnd : ∀ l, at_ l → NotEnd l) :
    LaysAt x ready at_ [] (importDeclaration sub) (single .firm) := by
  refine .mark fun start => .advance (fun l here => notEnd l here.1) ?_
  refine .look (looks_isAt _) fun bare => ?_
  extract_lets join
  have joined (clause : Child) : Lays x true (.mark start true :: single .loose clause) (join clause)
      (single .firm) := by
    refine lays_moduleSpecifier.call fun specifier => ?_
    refine (lays_importAttributes hsub).call fun _ => .steady Steady.moving.endStatement fun _ => ?_
    exact .add rfl (.may (.must rfl .nil)) rfl rfl
  refine decided (fun _ => .without rfl joined) fun _ => lays_importClause.call fun clause => ?_
  exact .expectWord (atOnce ((joined clause).given (.keep (.loose .nil))))

/-! ### Exports -/

theorem lays_exportAssignment (hsub : LaysPhrases x sub) :
    LaysAt x true at_ [] (exportAssignment sub) (single .firm) := by
  refine .mark fun start => (lays_assignmentOrReport hsub).call fun value => ?_
  exact .steady Steady.moving.endStatement fun _ => .add rfl (.must rfl .nil) rfl rfl

theorem lays_defaultExport (hsub : LaysPhrases x sub) :
    LaysAt x true at_ [] (defaultExport sub) (single .firm) := by
  refine .kind fun k _ => ?_
  split
  · exact lays_functionDeclaration hsub true
  · refine .look looks_asyncFunctionAhead fun found => ?_
    refine decided (fun _ => lays_functionDeclaration hsub true) fun _ => lays_exportAssignment hsub
  · exact lays_classOf hsub true (fun l here => here.2) rfl (by simp)
  · exact lays_exportAssignment hsub

def exportPieces (parts : Child × Child) : List Item :=
  [.piece parts.1 .loose, .piece parts.2 .loose]

theorem lays_exportAll (hsub : LaysPhrases x sub) (notEnd : ∀ l, at_ l → NotEnd l) :
    LaysAt x ready at_ [] (exportAll sub) exportPieces := by
  refine .mark fun start => .advance (fun l here => notEnd l here.1) ?_
  extract_lets join
  have joined {ready : Bool} (clause : Child) : Lays x ready (single .loose clause) (join clause)
      exportPieces := by
    refine .expectWord (lays_moduleSpecifier.call fun specifier => ?_)
    refine (lays_importAttributes hsub).call fun _ => .steady Steady.moving.endStatement fun _ => ?_
    exact .pure (.keep (.loose .nil))
  refine .acceptWord (lays_exportName.call fun name => ?_) ?_
  · refine .bind (.add rfl (.may .nil) rfl rfl) fun clause => ?_
    exact (joined clause).given (.loose .nil)
  · exact atOnce ((joined none).any.given (.drop (.missing rfl .nil)))

theorem lays_exportNamed (hsub : LaysPhrases x sub) :
    LaysAt x ready at_ [] (exportNamed sub) exportPieces := by
  refine .bind (lays_specifiers rfl rfl rfl rfl) fun clause =>
    .steady (Steady.moving.accept _) fun from_ => ?_
  extract_lets join
  have joined (specifier : Child) : Lays x ready (exportPieces (clause, specifier)) (join specifier)
      exportPieces := .steady Steady.moving.endStatement fun _ => .pure (.refl _)
  refine decided (fun _ => lays_moduleSpecifier.call fun specifier => ?_) fun _ => ?_
  · refine (lays_importAttributes hsub).call fun _ => atOnce ?_
    exact (joined specifier).given (.loose (.loose .nil))
  · exact atOnce ((joined none).given (.loose (.missing rfl .nil))).any

theorem lays_exportedDeclaration (hsub : LaysPhrases x sub) :
    LaysAt x true at_ [] (exportedDeclaration sub) (single .firm) := by
  refine .look looks_kind fun k => ?_
  split
  · exact (hsub .statement).any
  · exact (hsub .statement).any
  · exact (hsub .statement).any
  · exact (hsub .statement).any
  · exact (hsub .statement).any
  · exact (hsub .statement).any
  · exact lays_reportNone

theorem lays_exportDeclaration (hsub : LaysPhrases x sub) (notEnd : ∀ l, at_ l → NotEnd l) :
    LaysAt x ready at_ [] (exportDeclaration sub) (single .firm) := by
  refine .mark fun start => .advance (fun l here => notEnd l here.1) ?_
  refine .steady (Steady.moving.accept _) fun isDefault => ?_
  extract_lets join
  have joined (parts : Child × Child) : Lays x true (.mark start true :: exportPieces parts)
      (join parts) (single .firm) := .add rfl (.may (.may .nil)) rfl rfl
  have alone (clause : Child) : Lays x true [.mark start true, .piece clause .firm]
      (join (clause, none)) (single .firm) :=
    (joined (clause, none)).given (.keep (.loose (.missing rfl .nil)))
  refine decided (fun _ => ?_) fun _ => .kind fun k _ => ?_
  · exact (lays_defaultExport hsub).call fun clause => atOnce (alone clause)
  split
  · exact (lays_exportAll hsub fun l here => notEnd_mark here.2).call joined
  · exact (lays_exportNamed hsub).call joined
  · exact (lays_exportedDeclaration hsub).call fun clause => atOnce (alone clause)

end PathGuard.Parser
