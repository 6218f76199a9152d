import PathGuard.Grammar.Pattern
import PathGuard.Proofs.Span.Name
/-!
# Where patterns and parameters lie
-/

namespace PathGuard.Parser

open Item

variable {x : Setting} {ready : Bool} {at_ : Lexer → Prop} {sub : PhraseParser} {start : Nat}

/-! ### Object patterns -/

theorem lays_restElement (hsub : LaysPhrases x sub) :
    LaysAt x true at_ [.mark start true] (restElement sub start) (single .firm) := by
  refine (hsub .binding).any.call fun name => ?_
  exact .add rfl (.missing (.must rfl (.missing .nil))) rfl rfl

theorem lays_propertyElement (hsub : LaysPhrases x sub) :
    LaysAt x ready at_ [.mark start false] (propertyElement sub start) (single .firm) := by
  refine .look looks_atIdentifier fun shorthand => (lays_propertyName hsub).call fun key => ?_
  refine decided (fun none_ => .pureNone none_ (.drop (.refl _))) fun _ => .acceptMark ?_ ?_
  · refine (hsub .binding).any.call fun name => (lays_initializer hsub).call fun value => ?_
    exact .add rfl (.may (.must rfl (.may .nil))) rfl rfl
  · refine mergedUnless <|
      .steady (either (Steady.closed.pure _) (Steady.moving.expect _)) fun _ => ?_
    refine (lays_initializer hsub).call fun value => ?_
    exact .add rfl (.missing (.must rfl (.may .nil))) rfl rfl

theorem lays_objectElement (hsub : LaysPhrases x sub) :
    LaysAt x ready at_ [] (objectElement sub) (single .firm) := by
  refine .mark fun start => .acceptMark ?_ ?_
  · exact lays_restElement hsub
  · exact lays_propertyElement hsub

theorem lays_objectElementStep (hsub : LaysPhrases x sub) (elements : List Child) :
    Lays x ready (several .firm elements.reverse) (objectElementStep sub elements)
      fun answer => several .firm answer.value.reverse := by
  refine .look looks_kind fun k => decided (fun _ => .pure (.refl _)) fun _ => ?_
  refine (lays_objectElement hsub).call fun element => ?_
  refine decided (fun _ => .pure (.init _ _)) fun _ =>
    .steady (Steady.moving.accept _) fun comma => ?_
  exact decided (fun _ => .pure (.snoc ..)) fun _ => .pure (.snoc ..)

theorem lays_objectPattern (hsub : LaysPhrases x sub) :
    LaysAt x ready at_ [] (objectPattern sub) (single .firm) := by
  refine .nested (.mark fun start => .expectMark ?_) (.lost .nil)
  refine .call (Q := fun (elements : List Child) => several .firm elements.reverse)
    (.repeating (I := fun elements => several .firm elements.reverse)
      (lays_objectElementStep hsub) []) fun elements => .steady (Steady.moving.expect _) fun _ => ?_
  exact .add rfl (.several rfl _) rfl rfl

/-! ### Array patterns -/

theorem lays_hole (comma : ∀ l, at_ l → l.kind = .mark .comma) :
    LaysAt x ready at_ [] hole (single .there) := by
  refine .start fun start => .addAhead rfl (fun l here => notEnd_mark (comma l here.1))
    (fun l here => here.2) (fun l sits here => ?_) (fun l _ _ full => ?_) fun node => .pure (.refl _)
  · rw [← here.2]
    exact ⟨sits.first.boundary, sits.here.offset_le⟩
  · rcases full with never | never <;> cases never

theorem lays_arrayElementStep (hsub : LaysPhrases x sub) (elements : List Child) :
    Lays x true (several .there elements.reverse) (arrayElementStep sub elements)
      fun answer => several .there answer.value.reverse := by
  refine .kind fun k _ => decided (fun _ => .pure (.refl _)) fun _ =>
    decided (fun comma => ?_) fun _ => ?_
  · exact .call (lays_hole fun l here => here.2.trans comma) fun node => .pure (.snoc ..)
  refine .mark fun start => .steady (Steady.moving.accept _) fun rest => ?_
  refine (hsub .binding).any.call fun name => ?_
  rw [List.append_assoc]
  refine decided (fun _ => .pure (.init _ _)) fun _ => (lays_initializer hsub).call fun value => ?_
  rw [List.append_assoc]
  refine .upon _ (.add rfl (.missing (.must rfl (.may .nil))) rfl rfl) fun element => ?_
  refine .given (P := several .there elements.reverse ++ single .there element) ?_
    ((Covers.there .nil).append_left _)
  refine .steady (Steady.moving.accept _) fun comma => ?_
  exact decided (fun _ => .pure (.snoc ..)) fun _ => .pure (.snoc ..)

theorem lays_arrayPattern (hsub : LaysPhrases x sub) :
    LaysAt x ready at_ [] (arrayPattern sub) (single .firm) := by
  refine .nested (.mark fun start => .expectMark ?_) (.lost .nil)
  refine .call (Q := fun (elements : List Child) => several .there elements.reverse)
    (.repeating (I := fun elements => several .there elements.reverse)
      (lays_arrayElementStep hsub) []) fun elements => .steady (Steady.moving.expect _) fun _ => ?_
  exact .add rfl (.several rfl _) rfl rfl

theorem lays_binding (hsub : LaysPhrases x sub) :
    LaysAt x ready at_ [] (binding sub) (single .firm) := by
  refine .look looks_kind fun k => ?_
  split
  · exact lays_objectPattern hsub
  · exact lays_arrayPattern hsub
  · exact lays_identifier

/-! ### Parameters -/

theorem lays_parameter (hsub : LaysPhrases x sub) :
    LaysAt x ready at_ [] (parameter sub) (single .firm) := by
  refine .mark fun start => .steady (Steady.moving.accept _) fun rest => ?_
  refine (lays_binding hsub).call fun name => ?_
  refine decided (fun none_ => .pureNone none_ (.drop (.refl _))) fun _ => ?_
  refine (lays_initializer hsub).call fun value => ?_
  exact .add rfl (.must rfl (.may .nil)) rfl rfl

theorem lays_parameterStep (hsub : LaysPhrases x sub) (acc : List Child × Bool) :
    Lays x ready (several .firm acc.1.reverse) (parameterStep sub acc)
      fun answer => several .firm answer.value.1.reverse := by
  refine .look looks_kind fun k => decided (fun _ => .pure (.refl _)) fun _ => ?_
  refine (lays_parameter hsub).call fun node => ?_
  refine decided (fun _ => .pure (.init _ _)) fun _ =>
    .steady (Steady.moving.accept _) fun comma => ?_
  refine decided (fun _ => ?_) fun _ => .pure (.snoc ..)
  exact .look (looks_isAt _) fun last => .pure (.snoc ..)

theorem lays_parameterList (hsub : LaysPhrases x sub) :
    LaysAt x ready at_ [] (parameterList sub) fun parameters => several .firm parameters.nodes := by
  refine .look looks_tokenStart fun start => .steady (Steady.moving.expect _) fun _ => ?_
  refine .bind (.repeating (I := fun acc => several .firm acc.1.reverse)
    (lays_parameterStep hsub) ([], false)) fun acc => .steady (Steady.moving.expect _) fun _ => ?_
  exact .rowFrom fun _ => .refl _

end PathGuard.Parser
