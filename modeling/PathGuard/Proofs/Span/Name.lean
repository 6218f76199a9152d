import PathGuard.Proofs.Grammar.Name
import PathGuard.Proofs.Span.Adding
/-!
# Where names lie

What every phrase leaves, and with it the parsers of names, of literals and of expressions with
commas: one part that takes characters, unless a problem was noted.
-/

namespace PathGuard

def Phrase.begins : Phrase → Lexer → Prop
  | .newExpression, l => l.kind = .word .newWord
  | _, _ => True

namespace Parser

open Item

/-- Whether a parser of phrases lays what each phrase should, for one who has a phrase to spare. -/
def LaysPhrases (x : Setting) (sub : PhraseParser) : Prop :=
  ∀ p : Phrase, LaysAt x true p.begins [] (sub p) (single .firm)

variable {β : Type} {x : Setting} {ready : Bool} {at_ : Lexer → Prop} {P : List Item}
  {sub : PhraseParser} {R : β → List Item}

/-! ### Expressions -/

theorem lays_assignmentOrReport (hsub : LaysPhrases x sub) :
    LaysAt x true at_ [] (assignmentOrReport sub) (single .firm) := by
  refine (hsub .assignment).any.call fun value => ?_
  refine decided (fun _ => .steady (Steady.moving.reportHere _) fun _ => .pure (.refl _)) fun _ => ?_
  exact .pure (.refl _)

theorem lays_expression (hsub : LaysPhrases x sub) :
    LaysAt x true at_ [] (expression sub) (single .firm) := by
  refine .mark fun start => (hsub .assignment).any.call fun left => ?_
  refine decided (fun none_ => .steady (Steady.moving.reportHere _) fun _ => ?_) fun _ => ?_
  · exact .pureNone none_ (.drop (.refl _))
  refine .imp (.repeating (I := fun left => [.mark start false, .piece left .firm])
    (fun left => ?_) left) fun _ => .drop (.refl _)
  refine .steady (Steady.moving.accept _) fun comma => decided (fun _ => ?_) fun _ =>
    .pure (.refl _)
  refine (lays_assignmentOrReport hsub).call fun right => ?_
  refine .bind ?_ fun node => .pure (.refl _)
  exact .addKeep rfl (.must rfl (.must rfl .nil)) rfl rfl

theorem lays_initializer (hsub : LaysPhrases x sub) :
    LaysAt x ready at_ [] (initializer sub) (single .loose) := by
  refine .acceptMark ?_ (.pure (.missing rfl .nil))
  exact (lays_assignmentOrReport hsub).imp fun _ => .loose .nil

/-! ### Single tokens -/

/-- Whether a lexer does not stand at the end of the text. -/
def NotEnd (l : Lexer) : Prop := l.kind ≠ .endOfFile

theorem notEnd_mark {l : Lexer} {p : Punctuator} (here : l.kind = .mark p) : NotEnd l :=
  fun ended => TokenKind.noConfusion (here.symm.trans ended)

theorem notEnd_word {l : Lexer} {w : Keyword} (here : l.kind = .word w) : NotEnd l :=
  fun ended => TokenKind.noConfusion (here.symm.trans ended)

theorem notEnd_literal {l : Lexer} {n : LiteralKind} (here : l.kind = .literal n) : NotEnd l :=
  fun ended => TokenKind.noConfusion (here.symm.trans ended)

theorem notEnd_of_atIdentifier (s : ParserState) (name : (atIdentifier s).1 = true) :
    NotEnd s.lexer := by
  intro ended
  change isNameIn s.context s.lexer.kind = true at name
  rw [ended] at name
  cases name

theorem LaysAt.name {k : TokenKind} {next : Child → Parser β}
    (shape : NodeKind.shape? (.token k) = some .identifier) (notEnd : ∀ l, at_ l → NotEnd l)
    (then_ : ∀ i : NodeId, LaysAt x true (fun l => ∃ l', at_ l' ∧ l = l'.scan)
      (P.map Item.pass ++ single .firm (some i)) (next (some i)) R) :
    LaysAt x ready at_ P (takeIdentifier k >>= next) R := by
  have unfolded : takeIdentifier k >>= next = tokenStart >>= fun start => tokenEnd >>= fun stop =>
      tokenValue >>= fun text => Parser.advance >>= fun _ =>
      Parser.addSpanned (.token k) start stop (.identifier text) >>= next := by
    simp only [takeIdentifier, bind_assoc]
  rw [unfolded]
  refine .start fun start => .stop fun stop => .look looks_tokenValue fun text => ?_
  refine .advanceTokenFrom (fun l here => notEnd l here.1.1) (fun l here => here.1.2)
    (fun l here => here.2) ?_
  refine .bindAt ((LaysAt.addSpanned shape rfl rfl).frame _) (fun _ => rfl) fun s => ?_
  exact (then_ _).at' fun l here => here.imp fun l' behind => ⟨behind.1.1.1, behind.2⟩

theorem lays_takeIdentifier {k : TokenKind} (shape : NodeKind.shape? (.token k) = some .identifier)
    (notEnd : ∀ l, at_ l → NotEnd l) :
    LaysAt x ready at_ [] (takeIdentifier k) (single .firm) := by
  rw [← bind_pure (takeIdentifier k)]
  exact .name shape notEnd fun i => .pure (.refl _)

theorem LaysAt.literal {next : Child → Parser β} (lit : ∀ l, at_ l → IsLiteral l.kind)
    (k : ∀ c, Lays x true (P.map Item.pass ++ single .firm c) (next c) R) :
    LaysAt x ready at_ P (takeLiteral >>= next) R := by
  have unfolded : takeLiteral >>= next = Parser.kind >>= fun k => tokenStart >>= fun start =>
      tokenEnd >>= fun stop => tokenValue >>= fun value => tokenText >>= fun text =>
      Parser.advance >>= fun _ =>
      Parser.addSpanned (.token k) start stop (.literal value (some text)) >>= next := by
    simp only [takeLiteral, bind_assoc]
  rw [unfolded]
  refine .kind fun k here => .start fun start => .stop fun stop => ?_
  obtain ⟨l, found, same⟩ := here
  obtain ⟨n, literal⟩ := lit l found
  obtain rfl : k = .literal n := same.symm.trans literal
  refine .look looks_tokenValue fun value => .look looks_tokenText fun text => ?_
  refine .advanceToken (fun l here => notEnd_literal here.1.1.2) (fun l here => here.1.2)
    (fun l here => here.2) ?_
  exact .upon _ (.addSpanned rfl rfl rfl) k

theorem lays_takeLiteral (lit : ∀ l, at_ l → IsLiteral l.kind) :
    LaysAt x ready at_ [] takeLiteral (single .firm) := by
  rw [← bind_pure takeLiteral]
  exact .literal lit fun c => .pure (.refl _)

theorem lays_takeToken (bare : ∀ l, at_ l → NodeKind.shape? (.token l.kind) = none)
    (notEnd : ∀ l, at_ l → NotEnd l) : LaysAt x ready at_ [] takeToken (single .firm) := by
  refine .kind fun k here => .start fun start => .stop fun stop => ?_
  obtain ⟨l, found, same⟩ := here
  refine .advanceToken (fun l here => notEnd l here.1.1.1) (fun l here => here.1.2)
    (fun l here => here.2) ?_
  exact .addToken (same ▸ bare l found)

theorem lays_reportNone {cause : SyntaxError} {g : Grade} :
    LaysAt x ready at_ [] (reportHere cause >>= fun _ => pure none) (single g) :=
  .report (.pure (.lost .nil))

theorem lays_identifier : LaysAt x ready at_ [] identifier (single .firm) := by
  refine .ask looks_atIdentifier notEnd_of_atIdentifier ?_ ?_
  · exact lays_takeIdentifier rfl fun l here => here.2
  · exact lays_reportNone

theorem lays_identifierName : LaysAt x ready at_ [] identifierName (single .firm) := by
  refine .kind fun k _ => decided (fun name => ?_) fun _ => decided (fun name => ?_) fun _ => ?_
  · refine lays_takeIdentifier rfl fun l here ended => ?_
    rw [name] at here
    exact TokenKind.noConfusion (here.2.symm.trans ended)
  · refine lays_takeIdentifier rfl fun l here ended => ?_
    rw [← here.2, ended] at name
    cases name
  · exact lays_reportNone

/-! ### Names of properties -/

theorem lays_computedName (hsub : LaysPhrases x sub) (bracket : ∀ l, at_ l → NotEnd l) :
    LaysAt x ready at_ [] (computedName sub) (single .firm) := by
  refine .mark fun start => .advance (fun l here => bracket l here.1) ?_
  refine .call (.within _ (lays_assignmentOrReport hsub)) fun value => .expectMark ?_
  exact .add rfl (.must rfl .nil) rfl rfl

theorem lays_propertyName (hsub : LaysPhrases x sub) :
    LaysAt x ready at_ [] (propertyName sub) (single .firm) := by
  refine .kind fun k _ => ?_
  split
  · exact lays_takeLiteral fun l here => ⟨_, here.2⟩
  · exact lays_takeLiteral fun l here => ⟨_, here.2⟩
  · exact lays_takeLiteral fun l here => ⟨_, here.2⟩
  · exact lays_computedName hsub fun l here => notEnd_mark here.2
  · exact lays_identifierName

end Parser

end PathGuard
