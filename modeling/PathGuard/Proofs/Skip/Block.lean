import PathGuard.Proofs.Skip.Pattern
import PathGuard.Proofs.Span.Block
/-!
# Skipping blocks and functions

A list of statements passes a token that begins no statement, whatever it is, but never without a note.
-/

namespace PathGuard.Parser

variable {text : List Char} {at_ : Lexer → Prop} {sub : PhraseParser} {start : Nat} {k : NodeKind}
  {name : Child}

/-! ### Statements in a row -/

theorem skips_statementStep (hsub : SkipsPhrases text sub) (isEnd : TokenKind → Bool)
    (statements : List Child) : Skips text [] (statementStep sub isEnd statements) closed := by
  refine .look looks_kind fun k => decided (fun _ => .pure rfl) fun _ => ?_
  refine .look looks_tokenStart fun start => (hsub .statement).any.call fun statement => ?_
  refine .look looks_kind fun k' => .look looks_tokenStart fun start' => ?_
  exact decided (fun _ => .report (Notes.moving.advance.bind fun _ => .pure _)) fun _ => .pure rfl

theorem skips_statementList (hsub : SkipsPhrases text sub) (isEnd : TokenKind → Bool) :
    SkipsAt text at_ [] (statementList sub isEnd) closed := by
  refine .look looks_tokenStart fun start => ?_
  exact .call (.repeating (skips_statementStep hsub isEnd) []) fun statements => .last fun _ => rfl

theorem skips_blockFrom (hsub : SkipsPhrases text sub) :
    SkipsAt text at_ [] (blockFrom sub k start) found := by
  refine .look looks_tokenCursor fun brace => .expectMark (.opens rfl) ?_
  refine (skips_statementList hsub _).call fun statements => .expectMark (.closes rfl) ?_
  exact .look (looks_spansLines _) fun multiLine => .add fun _ => rfl

theorem skips_block (hsub : SkipsPhrases text sub) : SkipsAt text at_ [] (block sub) closed :=
  .look looks_tokenStart fun _ => (skips_blockFrom hsub).of_found

/-! ### Functions -/

theorem skips_signatureAndBody (hsub : SkipsPhrases text sub) (isAsync isGenerator : Bool) :
    SkipsAt text at_ [] (signatureAndBody sub isAsync isGenerator) closed := by
  refine .within _ ((skips_parameterList hsub).call fun parameters => ?_)
  exact (skips_block hsub).call fun body => .pure rfl

theorem skips_functionOf (hsub : SkipsPhrases text sub) {isAsync isGenerator : Bool}
    (modifiers : Option NodeList) :
    SkipsAt text at_ []
      (do
        let (parameters, body) ← signatureAndBody sub isAsync isGenerator
        add k start (.function modifiers isAsync isGenerator name parameters body false)) found :=
  (skips_signatureAndBody hsub _ _).call fun _ => .add fun _ => rfl

theorem skips_functionDeclaration (hsub : SkipsPhrases text sub) (nameOptional : Bool) :
    SkipsAt text at_ [] (functionDeclaration sub nameOptional) closed := by
  refine .look looks_tokenStart fun start => (skips_acceptWord _).call fun isAsync => .expectWord ?_
  refine (skips_acceptMark rfl).call fun isGenerator => .look looks_atIdentifier fun found => ?_
  extract_lets join nameless
  have joined (name : Child) : Skips text [] (join name) closed :=
    (skips_functionOf hsub none).of_found
  refine decided (fun _ => skips_identifier.of_found.call fun name => joined name) fun _ => ?_
  exact either (joined none) (.call (skips_reportHere _) fun _ => joined none)

theorem isLoose_of_within (change : Context → Context) (s : ParserState)
    (name : (within change atIdentifier s).1 = true) : s.lexer.IsLoose :=
  isLoose_of_atIdentifier { s with context := change s.context } name

theorem skips_functionExpression (hsub : SkipsPhrases text sub) :
    SkipsAt text at_ [] (functionExpression sub) closed := by
  refine .look looks_tokenStart fun start => (skips_acceptWord _).call fun isAsync => .expectWord ?_
  refine (skips_acceptMark rfl).call fun isGenerator => ?_
  refine .ask (looks_within looks_atIdentifier _) (isLoose_of_within _) ?_ ?_
  · exact (skips_takeIdentifier fun l here => here.2).of_found.call fun name =>
      (skips_functionOf hsub none).of_found
  · exact (skips_functionOf hsub none).of_found

/-! ### Methods -/

theorem skips_accessorMark : SkipsAt text at_ [] accessorMark closed := by
  refine .kind fun k => ?_
  extract_lets found
  refine decided (fun accessor => .look looks_atMemberMark fun marks => ?_) fun _ => .pure rfl
  refine decided (fun _ => .advanceLoose (fun l here => ?_) (.pure rfl)) fun _ => .pure rfl
  refine Lexer.isLoose_of_kind here.2 ?_
  simp only [found] at accessor
  split at accessor
  · rfl
  · rfl
  · cases accessor

theorem skips_methodMarks : SkipsAt text at_ [] methodMarks closed := by
  have rest (isAsync : Bool) : Skips text [] (do
      let accessor ← if isAsync then pure none else accessorMark
      let isGenerator ← if accessor.isNone then acceptMark .asterisk else pure false
      return (⟨isAsync, accessor, isGenerator⟩ : MethodMarks)) closed := by
    extract_lets withAccessor
    have last (accessor : Option Accessor) : Skips text [] (withAccessor accessor) closed := by
      unfold withAccessor
      exact merged <| .call (either (skips_acceptMark rfl) (.pure rfl)) fun _ => .pure rfl
    exact merged <| .call (either (.pure rfl) skips_accessorMark) last
  refine .isAt (.look looks_atMemberMark fun marks => ?_) (rest false).any
  beta_reduce
  refine decided (fun _ => ?_) fun _ => (rest false).any
  exact .advanceLoose (fun l here => Lexer.isLoose_word here.2) (rest true)

theorem skips_method (hsub : SkipsPhrases text sub) (modifiers : Option NodeList)
    (marks : MethodMarks) :
    SkipsAt text at_ [] (method sub k start modifiers marks name) found :=
  skips_functionOf hsub modifiers

end PathGuard.Parser
