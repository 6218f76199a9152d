import PathGuard.Proofs.Skip.Block
import PathGuard.Proofs.Span.Class
/-!
# Skipping classes

Where no member is found a problem was noted, so the token that is skipped then does not matter.
-/

namespace PathGuard.Parser

variable {text : List Char} {at_ : Lexer → Prop} {sub : PhraseParser} {start : Nat}

/-! ### Members -/

theorem skips_staticBlock (hsub : SkipsPhrases text sub) (loose : ∀ l, at_ l → l.IsLoose) :
    SkipsAt text at_ [] (staticBlock sub start) found :=
  .advanceLoose loose (.within _ (skips_blockFrom hsub))

theorem skips_field (hsub : SkipsPhrases text sub) (modifiers : Option NodeList) (marks : MethodMarks)
    (name : Child) (noGroup : ∀ l, at_ l → l.kind ≠ .mark .openParen) :
    SkipsAt text at_ [] (field sub start modifiers marks name) found := by
  have joined (value : Child) : Skips text [] (do
      endStatement
      add .propertyDeclaration start (.propertyDeclaration modifiers name value)) found :=
    skips_endStatement.call fun _ => .add fun _ => rfl
  unfold field
  extract_lets join join'
  have valued : Skips text [] (join' ()) found :=
    .acceptMark (.loose rfl) (.call (.within _ (skips_assignmentOrReport hsub)) joined)
      (joined none).any
  exact decided (fun _ => .expectMissing noGroup valued.notes) fun _ => valued.any

theorem skips_namedMember (hsub : SkipsPhrases text sub) (modifiers : List Child) :
    SkipsAt text at_ [] (namedMember sub start modifiers) found := by
  refine skips_methodMarks.call fun marks => ?_
  refine merged <|
    .look (either looks_atConstructorName (Looks.closed.pure _)) fun isConstructor => ?_
  refine (skips_propertyName hsub).present (.pure none) fun name => .isAt ?_ ?_
  · exact skips_method hsub _ marks
  · exact skips_field hsub _ marks _ fun l here => here.2

theorem skips_classMember (hsub : SkipsPhrases text sub) :
    SkipsAt text at_ [] (classMember sub) found := by
  refine .look looks_tokenStart fun start => .isAt ?_ (skips_namedMember hsub [])
  refine .look looks_atMemberMark fun isStatic => ?_
  beta_reduce
  refine decided (fun _ => ?_) fun _ => skips_namedMember hsub []
  have loose (l : Lexer) (here : at_ l ∧ l.kind = .word .staticWord) : l.IsLoose :=
    Lexer.isLoose_word here.2
  refine .look looks_peek fun next => decided (fun _ => skips_staticBlock hsub loose) fun _ => ?_
  refine .look looks_tokenEnd fun stop => ?_
  refine .still (.addToken fun _ => rfl) (fun _ => rfl) fun modifier => ?_
  exact .advanceLoose loose (skips_namedMember hsub [modifier])

theorem skips_memberStep (hsub : SkipsPhrases text sub) (members : List Child) :
    Skips text [] (memberStep sub members) closed := by
  refine .look looks_kind fun k => decided (fun _ => .pure rfl) fun _ => ?_
  refine .acceptMark (.loose rfl) (.pure rfl) (.look looks_tokenStart fun start => ?_)
  refine (skips_classMember hsub).present ?_ fun member => .pure rfl
  refine (Notes.looks looks_tokenStart).bind fun start' => ?_
  exact either (Notes.moving.advance.bind fun _ => .pure _) (.pure _)

/-! ### Classes -/

theorem skips_heritage (hsub : SkipsPhrases text sub) : SkipsAt text at_ [] (heritage sub) closed := by
  refine .acceptWord ?_ (.pure rfl)
  refine (hsub .leftHandSide).any.call fun parent => mergedWhen ?_
  exact .call (either (skips_reportHere _) (.pure rfl)) fun _ => .pure rfl

theorem skips_classOf (hsub : SkipsPhrases text sub) {k : NodeKind} (nameOptional : Bool) :
    SkipsAt text at_ [] (classOf sub k nameOptional) closed := by
  refine .look looks_tokenStart fun start => .expectWord (.look looks_atIdentifier fun found => ?_)
  extract_lets join nameless
  have joined (name : Child) : Skips text [] (join name) closed := by
    refine (skips_heritage hsub).call fun parent => .look looks_tokenStart fun membersStart => ?_
    refine .expectMark (.opens rfl) (.call (.repeating (skips_memberStep hsub) []) fun members => ?_)
    exact .expectMark (.closes rfl) (.look (fun _ => rfl) fun members => .add fun _ => rfl)
  refine decided (fun _ => skips_identifier.of_found.call fun name => joined name) fun _ => ?_
  exact either (.call (skips_reportHere _) fun _ => joined none) (joined none)

end PathGuard.Parser
