import PathGuard.Proofs.Run.Pattern
import PathGuard.Proofs.Span.Block
/-!
# Running blocks and functions

A statement that passes no token is followed by skipping one, so no step of a list of statements stays
where it is.
-/

namespace PathGuard.Parser

open Known

variable {x : Room} {ready : Bool} {at_ : Lexer → Prop} {sub sub' : PhraseParser} {start : Nat}
  {k : NodeKind} {name : Child}

/-! ### Statements in a row -/

theorem runs_statementStep (tied : Tied x sub sub') (isEnd : TokenKind → Bool)
    (statements : List Child) (n : Nat) :
    Runs x true [.since n false] (statementStep sub isEnd statements)
      (statementStep sub' isEnd statements) (stepped (fun _ => []) n) := by
  refine .kind fun k => .ite (fun _ => .pure .nil) fun goesOn => .place fun start => ?_
  refine .fork (RunsAt.retain ((tied.at' .statement).any.given .nil)) (fun statement => ?_)
    fun statement => ?_
  · refine .kind fun k' => .place fun start' => .ite (fun skips => ?_) fun moved => .absurd ?_
    · refine .report (.advance (fun l here ended => ?_) (.pure (.subset (by simp))))
      simp [← here.1.2, ended] at skips
    · rintro l ⟨⟨⟨⟨-, rfl⟩, rfl⟩, rfl⟩, rfl⟩
      simp_all
  · refine .kind fun k' => .place fun start' => .ite (fun skips => ?_) fun moved => ?_
    · refine .report (.advance (fun l here ended => ?_) (.pure (.subset (by simp))))
      simp [← here.1.2, ended] at skips
    · exact .pure (.subset (by simp))

theorem runs_statementList (tied : Tied x sub sub') (isEnd : TokenKind → Bool) :
    RunsAt x true at_ [] (statementList sub isEnd) (statementList sub' isEnd) fun _ => [] := by
  refine .look looks_tokenStart fun start => ?_
  exact .steady (.repeatingPlain (runs_statementStep tied isEnd) []) fun statements =>
    .last (fun s => rfl) fun _ => .nil

theorem runs_blockFrom (tied : Tied x sub sub') (ordinary : k.isOrdinary = true) :
    RunsAt x true at_ [] (blockFrom sub k start) (blockFrom sub' k start) plain := by
  refine .look looks_tokenCursor fun brace => .steady (runs_expectMark _) fun _ => ?_
  refine .steady (runs_statementList tied _) fun statements => ?_
  refine .steady (runs_expectMark _) fun _ => .look (looks_spansLines _) fun multiLine => ?_
  exact .add ordinary

theorem runs_block (tied : Tied x sub sub') :
    RunsAt x true at_ [] (block sub) (block sub') plain :=
  .look looks_tokenStart fun _ => runs_blockFrom tied rfl

/-! ### Functions -/

theorem runs_signatureAndBody (tied : Tied x sub sub') (isAsync isGenerator : Bool) :
    RunsAt x true at_ [] (signatureAndBody sub isAsync isGenerator)
      (signatureAndBody sub' isAsync isGenerator) fun _ => [] := by
  refine .within _ (.steady (runs_parameterList tied) fun parameters => ?_)
  exact (runs_block tied).call fun body => .pure .nil

theorem runs_functionOf (tied : Tied x sub sub') {isAsync isGenerator : Bool}
    (modifiers : Option NodeList) (ordinary : k.isOrdinary = true) (P : List Known) :
    RunsAt x true at_ P
      (do
        let (parameters, body) ← signatureAndBody sub isAsync isGenerator
        add k start (.function modifiers isAsync isGenerator name parameters body false))
      (do
        let (parameters, body) ← signatureAndBody sub' isAsync isGenerator
        add k start (.function modifiers isAsync isGenerator name parameters body false)) plain :=
  .steady (runs_signatureAndBody tied _ _) fun _ => .add ordinary

theorem runs_functionDeclaration (tied : Tied x sub sub') (nameOptional : Bool) :
    RunsAt x true at_ [] (functionDeclaration sub nameOptional) (functionDeclaration sub' nameOptional)
      plain := by
  refine .look looks_tokenStart fun start => .steady (runs_acceptWord _) fun isAsync => ?_
  refine .steady (runs_expectWord _) fun _ => .steady (runs_acceptMark _) fun isGenerator => ?_
  refine .look looks_atIdentifier fun found => ?_
  extract_lets join nameless join'
  have joined (name : Child) (P : List Known) : Runs x true P (join name) (join' name) plain :=
    runs_functionOf tied none rfl P
  refine .ite (fun _ => .call runs_identifier fun name => joined name _) fun _ => ?_
  exact .mergedUnless <| .steady (.ite (fun _ => .pure .nil) fun _ => runs_reportHere _) fun _ =>
    .known (joined none _)

theorem runs_functionExpression (tied : Tied x sub sub')
    (here : ∀ l, at_ l → l.kind = .word .functionWord ∨ l.kind = .word .asyncWord) :
    RunsAt x ready at_ [] (functionExpression sub) (functionExpression sub') plain := by
  have rest (start : Nat) (isAsync : Bool) : Runs x true [] (do
      let isGenerator ← acceptMark .asterisk
      let named ← within (fun _ => .ofFunction isAsync isGenerator) atIdentifier
      let name ← if named then takeIdentifier .identifier else pure none
      let (parameters, body) ← signatureAndBody sub isAsync isGenerator
      add .functionExpression start
        (.function none isAsync isGenerator name parameters body false)) (do
      let isGenerator ← acceptMark .asterisk
      let named ← within (fun _ => .ofFunction isAsync isGenerator) atIdentifier
      let name ← if named then takeIdentifier .identifier else pure none
      let (parameters, body) ← signatureAndBody sub' isAsync isGenerator
      add .functionExpression start
        (.function none isAsync isGenerator name parameters body false)) plain := by
    refine .steady (runs_acceptMark _) fun isGenerator => ?_
    refine .ask (looks_within looks_atIdentifier _) (notEnd_of_within _) ?_ ?_
    · exact .past (passes_takeIdentifier fun l here => here.2) fun name => runs_functionOf tied none rfl _
    · exact .known (runs_functionOf tied none rfl _)
  refine .look looks_tokenStart fun start => .acceptWord ?_ ?_
  · exact .steady (runs_expectWord _) fun _ => rest start true
  · refine .expectThere (fun l found => ?_) (by simp) (rest start false)
    exact (here l found.1).resolve_right found.2

/-! ### Methods -/

theorem runs_accessorMark : RunsAt x ready at_ [] accessorMark accessorMark fun _ => [] := by
  refine .kind fun k => ?_
  extract_lets found
  refine .ite (fun accessor => .look looks_atMemberMark fun marks => ?_) fun _ => .pure .nil
  refine .ite (fun _ => .advance (fun l here ended => ?_) (.pure .nil)) fun _ => .pure .nil
  simp [found, here.2.symm.trans ended] at accessor

theorem runs_methodMarks : RunsAt x ready at_ [] methodMarks methodMarks fun _ => [] := by
  have rest {ready : Bool} (isAsync : Bool) : Runs x ready [] (do
      let accessor ← if isAsync then pure none else accessorMark
      let isGenerator ← if accessor.isNone then acceptMark .asterisk else pure false
      return (⟨isAsync, accessor, isGenerator⟩ : MethodMarks)) (do
      let accessor ← if isAsync then pure none else accessorMark
      let isGenerator ← if accessor.isNone then acceptMark .asterisk else pure false
      return ⟨isAsync, accessor, isGenerator⟩) fun _ => [] := by
    extract_lets withAccessor
    have last (accessor : Option Accessor) :
        Runs x ready [] (withAccessor accessor) (withAccessor accessor) fun _ => [] :=
      .ite (fun _ => .steady (runs_acceptMark _) fun _ => .pure .nil) fun _ => .known (.pure .nil)
    exact .ite (fun _ => .known (last none)) fun _ => .steady runs_accessorMark last
  refine .isAt (.look looks_atMemberMark fun marks => .ite (fun _ => ?_) fun _ => ?_) ?_
  · exact .advance (fun l here => notEnd_word here.2) (.known (rest true))
  · exact .known (rest false).any
  · exact .known (rest false).any

theorem runs_method (tied : Tied x sub sub') (ordinary : k.isOrdinary = true)
    (modifiers : Option NodeList) (marks : MethodMarks) (P : List Known) :
    RunsAt x true at_ P (method sub k start modifiers marks name)
      (method sub' k start modifiers marks name) plain :=
  runs_functionOf tied modifiers ordinary P

end PathGuard.Parser
