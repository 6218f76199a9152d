import PathGuard.Grammar.Pattern
import PathGuard.Proofs.Run.Name
/-!
# Running patterns and parameters
-/

namespace PathGuard.Parser

open Known

variable {x : Room} {ready : Bool} {at_ : Lexer → Prop} {sub sub' : PhraseParser} {start : Nat}

/-! ### Object patterns -/

theorem runs_restElement (tied : Tied x sub sub') :
    RunsAt x true at_ [] (restElement sub start) (restElement sub' start) plain :=
  (tied.at' .binding).any.call fun _ => .add rfl

theorem runs_propertyElement (tied : Tied x sub sub') :
    RunsAt x ready at_ [] (propertyElement sub start) (propertyElement sub' start) plain := by
  refine .look looks_atIdentifier fun shorthand => ?_
  refine .call (.unmarked (runs_propertyName tied)) fun key => ?_
  refine .ite (fun _ => .pure .plain_none) fun _ => .acceptMark ?_ ?_
  · refine (tied.at' .binding).any.call fun name => ?_
    exact .steady (runs_initializer tied) fun value => .add rfl
  · refine .mergedUnless <|
      .steady (.ite (fun _ => .pure .nil) fun _ => runs_expectMark _) fun _ => ?_
    exact .steady (runs_initializer tied) fun value => .add rfl

theorem runs_objectElement (tied : Tied x sub sub') :
    RunsAt x ready at_ [] (objectElement sub) (objectElement sub') plain := by
  refine .look looks_tokenStart fun start => .acceptMark ?_ ?_
  · exact runs_restElement tied
  · exact runs_propertyElement tied

theorem runs_objectElementStep (tied : Tied x sub sub') (elements : List Child) (n : Nat) :
    Runs x ready [.since n false] (objectElementStep sub elements) (objectElementStep sub' elements)
      (stepped (fun _ => []) n) := by
  refine .look looks_kind fun k => .ite (fun _ => .pure .nil) fun _ => ?_
  refine (runs_objectElement tied).call fun element => .ite (fun _ => .pure .nil) fun _ => ?_
  exact .acceptMark (.pure (.subset (by simp))) (.pure .nil)

theorem runs_objectPattern (tied : Tied x sub sub') :
    RunsAt x ready at_ [] (objectPattern sub) (objectPattern sub') plain := by
  refine .nested (fun _ => .look looks_tokenStart fun start => ?_) .plain_none
  refine .steady (runs_expectMark _) fun _ => ?_
  refine .steady (.repeatingPlain (runs_objectElementStep tied.deeper) []) fun elements => ?_
  exact .steady (runs_expectMark _) fun _ => .add rfl

/-! ### Array patterns -/

theorem passes_hole (comma : ∀ l, at_ l → l.kind = .mark .comma) :
    PassesAt x ready at_ hole hole plain := by
  intro n
  refine .look looks_tokenStart fun start => .still (.addToken rfl) (fun s => rfl) fun node => ?_
  exact .advance (fun l here => notEnd_mark (comma l here)) (.pure (.refl _))

theorem runs_arrayElementStep (tied : Tied x sub sub') (elements : List Child) (n : Nat) :
    Runs x true [.since n false] (arrayElementStep sub elements) (arrayElementStep sub' elements)
      (stepped (fun _ => []) n) := by
  refine .kind fun k => .ite (fun _ => .pure .nil) fun _ => .ite (fun comma => ?_) fun _ => ?_
  · exact .past (passes_hole fun l here => here.2.trans comma) fun node => .pure (.subset (by simp))
  refine .look looks_tokenStart fun start => .steady (runs_acceptMark _) fun rest => ?_
  refine (tied.at' .binding).any.call fun name => .ite (fun _ => .pure .nil) fun _ => ?_
  refine .steady (runs_initializer tied) fun value => .keep (Q := plain) (.add rfl) fun element => ?_
  exact .acceptMark (.pure (.subset (by simp))) (.pure .nil)

theorem runs_arrayPattern (tied : Tied x sub sub') :
    RunsAt x ready at_ [] (arrayPattern sub) (arrayPattern sub') plain := by
  refine .nested (fun _ => .look looks_tokenStart fun start => ?_) .plain_none
  refine .steady (runs_expectMark _) fun _ => ?_
  refine .steady (.repeatingPlain (runs_arrayElementStep tied.deeper) []) fun elements => ?_
  exact .steady (runs_expectMark _) fun _ => .add rfl

theorem runs_binding (tied : Tied x sub sub') :
    RunsAt x ready at_ [] (binding sub) (binding sub') plain := by
  refine .look looks_kind fun k => ?_
  split
  · exact runs_objectPattern tied
  · exact runs_arrayPattern tied
  · exact runs_identifier

/-! ### Parameters -/

theorem runs_parameter (tied : Tied x sub sub') :
    RunsAt x ready at_ [] (parameter sub) (parameter sub') plain := by
  refine .look looks_tokenStart fun start => .steady (runs_acceptMark _) fun rest => ?_
  refine (runs_binding tied).call fun name => .ite (fun _ => .pure .plain_none) fun _ => ?_
  exact .steady (runs_initializer tied) fun value => .add rfl

theorem runs_parameterStep (tied : Tied x sub sub') (acc : List Child × Bool) (n : Nat) :
    Runs x ready [.since n false] (parameterStep sub acc) (parameterStep sub' acc)
      (stepped (fun _ => []) n) := by
  refine .look looks_kind fun k => .ite (fun _ => .pure .nil) fun _ => ?_
  refine (runs_parameter tied).call fun node => .ite (fun _ => .pure .nil) fun _ => ?_
  exact .acceptMark (.look (looks_isAt _) fun last => .pure (.subset (by simp))) (.pure .nil)

theorem runs_parameterList (tied : Tied x sub sub') :
    RunsAt x ready at_ [] (parameterList sub) (parameterList sub') fun _ => [] := by
  refine .look looks_tokenStart fun start => .steady (runs_expectMark _) fun _ => ?_
  refine .steady (.repeatingPlain (runs_parameterStep tied) ([], false)) fun acc => ?_
  exact .steady (runs_expectMark _) fun _ => .last (fun s => rfl) fun _ => .nil

end PathGuard.Parser
