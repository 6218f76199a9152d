import PathGuard.Proofs.Skip.Rules
/-!
# Skipping names and expressions

What skipping asks of the parser of phrases, and with it the parsers of names, of literals and of
expressions with commas. None of their tokens opens or closes anything, besides the brackets around the
name of a property.
-/

namespace PathGuard.Parser

/-- Whether raw tokens can be walked along with every phrase. -/
def SkipsPhrases (text : List Char) (sub : PhraseParser) : Prop :=
  ∀ p : Phrase, SkipsAt text p.begins [] (sub p) closed

variable {text : List Char} {at_ : Lexer → Prop} {sub : PhraseParser} {opened : List Opening}

/-! ### Expressions -/

theorem skips_assignment_sub (hsub : SkipsPhrases text sub) :
    SkipsAt text at_ [] (sub .assignment) closed := (hsub .assignment).any

theorem skips_assignmentOrReport (hsub : SkipsPhrases text sub) :
    SkipsAt text at_ [] (assignmentOrReport sub) closed :=
  (skips_assignment_sub hsub).call fun _ =>
    mergedWhen <| .call (either (skips_reportHere _) (.pure rfl)) fun _ => .pure rfl

theorem skips_commaStep (hsub : SkipsPhrases text sub) (start : Nat) (left : Child) :
    Skips text [] (commaStep sub start left) closed := by
  refine .acceptMark (.loose rfl) ?_ (.pure rfl)
  refine (skips_assignmentOrReport hsub).call fun right => ?_
  exact .call (.add fun _ => rfl) fun node => .pure rfl

theorem skips_expression (hsub : SkipsPhrases text sub) :
    SkipsAt text at_ [] (expression sub) closed := by
  refine .look looks_tokenStart fun start => (skips_assignment_sub hsub).call fun left => ?_
  refine decided (fun _ => .report (.pure none)) fun _ => ?_
  exact .repeating (skips_commaStep hsub start) left

theorem skips_initializer (hsub : SkipsPhrases text sub) :
    SkipsAt text at_ [] (initializer sub) closed :=
  .acceptMark (.loose rfl) (skips_assignmentOrReport hsub).any (.pure rfl)

/-! ### Single tokens -/

theorem isLoose_of_atIdentifier (s : ParserState) (name : (atIdentifier s).1 = true) :
    s.lexer.IsLoose := by
  change isNameIn s.context s.lexer.kind = true at name
  refine Lexer.isLoose_of_kind rfl ?_
  generalize s.lexer.kind = k at name
  cases k with
  | identifier | word => rfl
  | _ => cases name

theorem skips_takeIdentifier {k : TokenKind} (loose : ∀ l, at_ l → l.IsLoose) :
    SkipsAt text at_ [] (takeIdentifier k) found := by
  refine .look looks_tokenStart fun start => .look looks_tokenEnd fun stop => ?_
  exact .look looks_tokenValue fun text => .advanceLoose loose (.addSpanned fun _ => rfl)

theorem skips_takeLiteral {opened' : List Opening} (turns : ∀ l, at_ l → l.kind.Turns opened opened')
    {left : Child → Option (List Opening)} (answered : ∀ i, left (some i) = some opened') :
    SkipsAt text at_ opened takeLiteral left := by
  refine .look looks_kind fun k => .look looks_tokenStart fun start => ?_
  refine .look looks_tokenEnd fun stop => .look looks_tokenValue fun value => ?_
  exact .look looks_tokenText fun text => .advance turns (.addSpanned answered)

theorem skips_takeToken (loose : ∀ l, at_ l → l.IsLoose) :
    SkipsAt text at_ [] takeToken closed := by
  refine .look looks_kind fun k => .look looks_tokenStart fun start => ?_
  exact .look looks_tokenEnd fun stop => .advanceLoose loose (.addToken fun _ => rfl)

theorem skips_identifier : SkipsAt text at_ [] identifier found :=
  .ask looks_atIdentifier isLoose_of_atIdentifier (skips_takeIdentifier fun _ here => here.2)
    (.report (.pure none))

/-! ### Names of properties -/

theorem skips_identifierName : SkipsAt text at_ [] identifierName found := by
  refine .kind fun k => decided (fun name => ?_) fun _ => decided (fun name => ?_) fun _ => ?_
  · exact skips_takeIdentifier fun l here => Lexer.isLoose_of_kind (here.2.trans name) rfl
  · exact skips_takeIdentifier fun l here =>
      Lexer.isLoose_of_kind here.2 (TokenKind.isLoose_of_isIdentifierOrWord name)
  · exact .report (.pure none)

theorem skips_computedName (hsub : SkipsPhrases text sub)
    (bracket : ∀ l, at_ l → l.kind = .mark .openBracket) :
    SkipsAt text at_ [] (computedName sub) found := by
  have opens (l : Lexer) (here : at_ l) : l.kind.Turns [] [.bracket] :=
    .opens (by rw [bracket l here]; rfl)
  refine .look looks_tokenStart fun start => .advance opens ?_
  refine .call (.within _ (skips_assignmentOrReport hsub)) fun expression => ?_
  exact .expectMark (.closes rfl) (.add fun _ => rfl)

theorem skips_propertyName (hsub : SkipsPhrases text sub) :
    SkipsAt text at_ [] (propertyName sub) found := by
  have literal {k : LiteralKind} (loose : (TokenKind.literal k).isLoose = true) :
      SkipsAt text (fun l => at_ l ∧ l.kind = .literal k) [] takeLiteral found :=
    skips_takeLiteral (fun l here => here.2 ▸ .loose loose) fun _ => rfl
  refine .kind fun k => ?_
  split
  · exact literal rfl
  · exact literal rfl
  · exact literal rfl
  · exact skips_computedName hsub fun l here => here.2
  · exact skips_identifierName

end PathGuard.Parser
