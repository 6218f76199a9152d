import PathGuard.Grammar.Pattern
import PathGuard.Proofs.Grammar.Name
/-!
# What the parsers of patterns and parameters make
-/

namespace PathGuard.Parser

variable {sub : PhraseParser} {at_ : TokenKind → Prop}

/-! ### Object patterns -/

def itemRole : Role := .of NodeKind.isPatternItem 0

/-- An element may bind what a pattern binds, or the name of a property that stands for itself. -/
theorem bound_of_binding (k : NodeKind) (_ : Nat) (h : k.isBinding = true) :
    (k.isBinding || k.isPropertyName) = true := by
  rw [h, Bool.true_or]

theorem bound_of_propertyName (k : NodeKind) (_ : Nat) (h : k.isPropertyName = true) :
    (k.isBinding || k.isPropertyName) = true := by
  rw [h, Bool.or_true]

theorem makes_restElement (hsub : MakesPhrases sub) (start : Nat) :
    MakesAt at_ [] (restElement sub start) (one itemRole) := by
  refine (hsub .binding).any.call fun name => ?_
  exact .add 0 (.missing (.part bound_of_binding (Nat.le_refl 0) (.missing .nil)))
    (fun _ => rfl) rfl

theorem makes_propertyElement (hsub : MakesPhrases sub) (start : Nat) :
    MakesAt at_ [] (propertyElement sub start) (one itemRole) := by
  refine .look looks_atIdentifier fun shorthand => ?_
  refine (makes_propertyName hsub).call fun key => ?_
  refine decided (fun _ => .pure (.drop (.missing rfl .nil))) fun _ => ?_
  refine .idle (Idle.moving.accept _) fun colon => decided (fun _ => ?_) fun _ => ?_
  · refine (hsub .binding).any.call fun name => ?_
    refine (makes_initializer hsub).call fun value => ?_
    exact .add 0 (.flat (.part bound_of_binding (Nat.le_refl 0) (.flat .nil))) (fun _ => rfl) rfl
  · refine mergedUnless <| .idle (either (Idle.closed.pure _) (Idle.moving.expect _)) fun _ => ?_
    refine (makes_initializer hsub).call fun value => ?_
    exact .add 0 (.missing (.part bound_of_propertyName (Nat.le_refl 0) (.flat .nil)))
      (fun _ => rfl) rfl

theorem makes_objectElement (hsub : MakesPhrases sub) :
    MakesAt at_ [] (objectElement sub) (one itemRole) := by
  refine .look looks_tokenStart fun start => .idle (Idle.moving.accept _) fun rest => ?_
  exact decided (fun _ => makes_restElement hsub start) fun _ => makes_propertyElement hsub start

theorem makes_objectElementStep (hsub : MakesPhrases sub) (elements : List Child) :
    Makes (row itemRole elements.reverse) (objectElementStep sub elements)
      fun answer => row itemRole answer.value.reverse := by
  refine .look looks_kind fun k => decided (fun _ => .pure (.refl _)) fun _ => ?_
  refine (makes_objectElement hsub).call fun element => ?_
  refine decided (fun _ => .pure (.init _ _)) fun _ => .idle (Idle.moving.accept _) fun comma => ?_
  exact decided (fun _ => .pure (covers_snoc ..)) fun _ => .pure (covers_snoc ..)

theorem makes_objectPattern (hsub : MakesPhrases sub) :
    MakesAt at_ [] (objectPattern sub) (one (.of NodeKind.isBinding 0)) := by
  refine .nested (Nat.zero_le 2) ?_
  refine .look looks_tokenStart fun start => .idle (Idle.moving.expect _) fun _ => ?_
  refine .bind (.repeating (I := fun elements => row itemRole elements.reverse)
    (makes_objectElementStep hsub) []) fun elements => .idle (Idle.moving.expect _) fun _ => ?_
  exact .add 0 (.row (fun _ _ h => h) (Nat.le_refl 0) _) (fun _ => rfl) rfl

/-! ### Array patterns -/

theorem makes_hole {role : Role} (ok : role.admits .omittedExpression 0 = true) :
    MakesAt at_ [] hole (one role) := by
  refine .look looks_tokenStart fun start => ?_
  refine .bind (Q := one role) (.addToken rfl ok) fun node => ?_
  exact .idle Idle.moving.advance fun _ => .pure (.refl _)

theorem makes_arrayElementStep (hsub : MakesPhrases sub) (elements : List Child) :
    Makes (row itemRole elements.reverse) (arrayElementStep sub elements)
      fun answer => row itemRole answer.value.reverse := by
  refine .look looks_kind fun k => decided (fun _ => .pure (.refl _)) fun _ =>
    decided (fun _ => ?_) ?_
  · exact MakesAt.call (makes_hole rfl) fun node => .pure (covers_snoc ..)
  intro _
  refine .look looks_tokenStart fun start => .idle (Idle.moving.accept _) fun rest => ?_
  refine (hsub .binding).any.call fun name => ?_
  refine decided (fun _ => .pure (.init _ _)) fun _ => ?_
  refine (makes_initializer hsub).call fun value => ?_
  rw [List.append_assoc]
  refine .upon (Q := one itemRole) _ ?_ fun element => .idle (Idle.moving.accept _) fun comma => ?_
  · exact .add 0 (.missing (.part bound_of_binding (Nat.le_refl 0) (.flat .nil))) (fun _ => rfl) rfl
  · exact decided (fun _ => .pure (covers_snoc ..)) fun _ => .pure (covers_snoc ..)

theorem makes_arrayPattern (hsub : MakesPhrases sub) :
    MakesAt at_ [] (arrayPattern sub) (one (.of NodeKind.isBinding 0)) := by
  refine .nested (Nat.zero_le 2) ?_
  refine .look looks_tokenStart fun start => .idle (Idle.moving.expect _) fun _ => ?_
  refine .bind (.repeating (I := fun elements => row itemRole elements.reverse)
    (makes_arrayElementStep hsub) []) fun elements => .idle (Idle.moving.expect _) fun _ => ?_
  exact .add 0 (.row (fun _ _ h => h) (Nat.le_refl 0) _) (fun _ => rfl) rfl

theorem makes_binding (hsub : MakesPhrases sub) :
    MakesAt at_ [] (binding sub) (one (.of NodeKind.isBinding 0)) := by
  refine .look looks_kind fun k => ?_
  split
  · exact makes_objectPattern hsub
  · exact makes_arrayPattern hsub
  · exact makes_identifier rfl rfl

/-! ### Parameters -/

def parameterRole : Role := .of (· == .parameter) 0

theorem makes_parameter (hsub : MakesPhrases sub) :
    MakesAt at_ [] (parameter sub) (one parameterRole) := by
  refine .look looks_tokenStart fun start => .idle (Idle.moving.accept _) fun rest => ?_
  refine (makes_binding hsub).call fun name => ?_
  refine decided (fun _ => .pure (.drop (.missing rfl .nil))) fun _ => ?_
  refine (makes_initializer hsub).call fun value => ?_
  exact .add 0 (.flat (.flat .nil)) (fun _ => rfl) rfl

theorem makes_parameterStep (hsub : MakesPhrases sub) (acc : List Child × Bool) :
    Makes (row parameterRole acc.1.reverse) (parameterStep sub acc)
      fun answer => row parameterRole answer.value.1.reverse := by
  refine .look looks_kind fun k => decided (fun _ => .pure (.refl _)) fun _ => ?_
  refine (makes_parameter hsub).call fun node => ?_
  refine decided (fun _ => .pure (.init _ _)) fun _ => .idle (Idle.moving.accept _) fun comma => ?_
  refine decided (fun _ => ?_) fun _ => .pure (covers_snoc ..)
  exact .look (looks_isAt _) fun last => .pure (covers_snoc ..)

theorem makes_parameterList (hsub : MakesPhrases sub) :
    MakesAt at_ [] (parameterList sub) fun parameters => row parameterRole parameters.nodes := by
  refine .look looks_tokenStart fun start => .idle (Idle.moving.expect _) fun _ => ?_
  refine .bind (.repeating (I := fun acc => row parameterRole acc.1.reverse)
    (makes_parameterStep hsub) ([], false)) fun acc => .idle (Idle.moving.expect _) fun _ => ?_
  exact .rowFrom fun _ => .refl _

end PathGuard.Parser
