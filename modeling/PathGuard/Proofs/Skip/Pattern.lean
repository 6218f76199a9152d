import PathGuard.Grammar.Pattern
import PathGuard.Proofs.Skip.Name
/-!
# Skipping patterns and parameters
-/

namespace PathGuard.Parser

variable {text : List Char} {at_ : Lexer → Prop} {sub : PhraseParser} {start : Nat}

/-! ### Object patterns -/

theorem skips_restElement (hsub : SkipsPhrases text sub) :
    SkipsAt text at_ [] (restElement sub start) closed :=
  (hsub .binding).any.call fun _ => .add fun _ => rfl

theorem skips_propertyElement (hsub : SkipsPhrases text sub) :
    SkipsAt text at_ [] (propertyElement sub start) closed := by
  refine .look looks_atIdentifier fun shorthand => (skips_propertyName hsub).of_found.call fun key => ?_
  refine decided (fun _ => .pure rfl) fun _ => .acceptMark (.loose rfl) ?_ ?_
  · refine (hsub .binding).any.call fun name => ?_
    exact (skips_initializer hsub).call fun value => .add fun _ => rfl
  · refine mergedUnless <| .call (either (.pure rfl) (skips_expectMark rfl)) fun _ => ?_
    exact (skips_initializer hsub).call fun value => .add fun _ => rfl

theorem skips_objectElement (hsub : SkipsPhrases text sub) :
    SkipsAt text at_ [] (objectElement sub) closed := by
  refine .look looks_tokenStart fun start => .acceptMark (.loose rfl) ?_ ?_
  · exact skips_restElement hsub
  · exact skips_propertyElement hsub

theorem skips_objectElementStep (hsub : SkipsPhrases text sub) (elements : List Child) :
    Skips text [] (objectElementStep sub elements) closed := by
  refine .look looks_kind fun k => decided (fun _ => .pure rfl) fun _ => ?_
  refine (skips_objectElement hsub).call fun element => decided (fun _ => .pure rfl) fun _ => ?_
  exact .acceptMark (.loose rfl) (.pure rfl) (.pure rfl)

theorem skips_objectPattern (hsub : SkipsPhrases text sub) :
    SkipsAt text at_ [] (objectPattern sub) closed := by
  refine .nested (.look looks_tokenStart fun start => .expectMark (.opens rfl) ?_)
  refine .call (.repeating (skips_objectElementStep hsub) []) fun elements => ?_
  exact .expectMark (.closes rfl) (.add fun _ => rfl)

/-! ### Array patterns -/

theorem skips_hole (comma : ∀ l, at_ l → l.kind = .mark .comma) :
    SkipsAt text at_ [] hole closed := by
  refine .look looks_tokenStart fun start => ?_
  refine .still (.addToken fun _ => rfl) (fun _ => rfl) fun node => ?_
  exact .advanceLoose (fun l here => Lexer.isLoose_of_kind (comma l here) rfl) (.pure rfl)

theorem skips_arrayElementStep (hsub : SkipsPhrases text sub) (elements : List Child) :
    Skips text [] (arrayElementStep sub elements) closed := by
  refine .kind fun k => decided (fun _ => .pure rfl) fun _ => decided (fun comma => ?_) fun _ => ?_
  · exact (skips_hole fun l here => here.2.trans comma).call fun node => .pure rfl
  refine .look looks_tokenStart fun start => (skips_acceptMark rfl).call fun rest => ?_
  refine (hsub .binding).any.call fun name => decided (fun _ => .pure rfl) fun _ => ?_
  refine (skips_initializer hsub).call fun value => .call (.add fun _ => rfl) fun element => ?_
  exact .acceptMark (.loose rfl) (.pure rfl) (.pure rfl)

theorem skips_arrayPattern (hsub : SkipsPhrases text sub) :
    SkipsAt text at_ [] (arrayPattern sub) closed := by
  refine .nested (.look looks_tokenStart fun start => .expectMark (.opens rfl) ?_)
  refine .call (.repeating (skips_arrayElementStep hsub) []) fun elements => ?_
  exact .expectMark (.closes rfl) (.add fun _ => rfl)

theorem skips_binding (hsub : SkipsPhrases text sub) : SkipsAt text at_ [] (binding sub) closed := by
  refine .look looks_kind fun k => ?_
  split
  · exact skips_objectPattern hsub
  · exact skips_arrayPattern hsub
  · exact skips_identifier.of_found

/-! ### Parameters -/

theorem skips_parameter (hsub : SkipsPhrases text sub) :
    SkipsAt text at_ [] (parameter sub) closed := by
  refine .look looks_tokenStart fun start => (skips_acceptMark rfl).call fun rest => ?_
  refine (skips_binding hsub).call fun name => decided (fun _ => .pure rfl) fun _ => ?_
  exact (skips_initializer hsub).call fun value => .add fun _ => rfl

theorem skips_parameterStep (hsub : SkipsPhrases text sub) (acc : List Child × Bool) :
    Skips text [] (parameterStep sub acc) closed := by
  refine .look looks_kind fun k => decided (fun _ => .pure rfl) fun _ => ?_
  refine (skips_parameter hsub).call fun node => decided (fun _ => .pure rfl) fun _ => ?_
  exact .acceptMark (.loose rfl) (.look (looks_isAt _) fun last => .pure rfl) (.pure rfl)

theorem skips_parameterList (hsub : SkipsPhrases text sub) :
    SkipsAt text at_ [] (parameterList sub) closed := by
  refine .look looks_tokenStart fun start => .expectMark (.opens rfl) ?_
  refine .call (.repeating (skips_parameterStep hsub) ([], false)) fun acc => ?_
  exact .expectMark (.closes rfl) (.last fun _ => rfl)

end PathGuard.Parser
