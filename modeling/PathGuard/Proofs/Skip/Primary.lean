import PathGuard.Proofs.Run.Noted
import PathGuard.Proofs.Run.Primary
import PathGuard.Proofs.Skip.Class
/-!
# Skipping primary expressions

Two kinds of tokens are read again. The brace behind a substitution is so by a walk over raw tokens as
well, and closes the substitution where the template ends. The slash of a regular expression is not, so
the raw tokens of the expression have to be walked over.
-/

namespace PathGuard.Parser

open ParserState

variable {text : List Char} {at_ : Lexer → Prop} {sub : PhraseParser} {start : Nat} {k : NodeKind}
  {opened : List Opening}

/-! ### Other readings -/

theorem rescan_reads (change : Lexer → Lexer) (cause : SyntaxError) (s : ParserState) :
    (rescan change cause s).2.lexer = change s.lexer ∧
      (rescan change cause s).2.readings = change s.lexer :: s.readings := by
  rw [run_rescan]
  split
  · exact ⟨reportHere_lexer cause _, report_readings _ _ cause⟩
  · exact ⟨rfl, rfl⟩

theorem lexer_takeLiteral (s : ParserState) : (takeLiteral s).2.lexer = s.lexer.scan := lexer_advance s

theorem notes_takeLiteral : Notes takeLiteral := by
  refine (Notes.looks looks_kind).bind fun k => (Notes.looks looks_tokenStart).bind fun start => ?_
  refine (Notes.looks looks_tokenEnd).bind fun stop => ?_
  refine (Notes.looks looks_tokenValue).bind fun value => ?_
  exact (Notes.looks looks_tokenText).bind fun text => Notes.moving.advance.bind fun _ => .growing _

def templateRest : Parser (Bool × Child) := do
  rescan Lexer.rescanTemplate .unterminatedTemplate
  let ends ← isAt (.literal .templateTail)
  let literal ← takeLiteral
  return (ends, literal)

theorem notes_templateRest : Notes templateRest :=
  (Notes.rescan _ _).bind fun _ => (Notes.looks (looks_isAt _)).bind fun _ =>
    notes_takeLiteral.bind fun _ => .pure _

def behindRest (opened : List Opening) (ends : Bool) : Option (List Opening) :=
  some (if ends then opened else .substitution :: opened)

theorem skips_templateRest (brace : ∀ l, at_ l → l.kind = .mark .closeBrace) :
    SkipsAt text at_ (.substitution :: opened) templateRest fun rest => behindRest opened rest.1 where
  notes := notes_templateRest
  walks := fun s _ here _ => by
    obtain ⟨lexer, -⟩ := rescan_reads Lexer.rescanTemplate .unterminatedTemplate s
    have ends : (templateRest s).1.1 = (s.lexer.rescanTemplate.kind == .literal .templateTail) := by
      rw [← lexer]
      rfl
    have scanned : (templateRest s).2.lexer = s.lexer.rescanTemplate.scan := by
      rw [← lexer]
      exact lexer_takeLiteral _
    refine ⟨_, rfl, fun outer _ => ?_⟩
    rw [ends, scanned]
    by_cases tail : s.lexer.rescanTemplate.kind = .literal .templateTail
    · rw [beq_iff_eq.2 tail, if_pos rfl]
      exact .tail (brace _ here) tail (.refl _ _)
    · rw [beq_eq_false_iff_ne.2 tail, if_neg Bool.false_ne_true]
      exact .middle (brace _ here) tail (.refl _ _)

theorem shorter_templateRest {s : ParserState} (alert : s.Alert text)
    (brace : s.lexer.kind = .mark .closeBrace) :
    (templateRest s).2.lexer.first.rest.length < s.lexer.first.rest.length := by
  have again := alert.sits.rescanTemplate brace
  obtain ⟨lexer, -⟩ := rescan_reads Lexer.rescanTemplate .unterminatedTemplate s
  have scanned : (templateRest s).2.lexer = s.lexer.rescanTemplate.scan := by
    rw [← lexer]
    exact lexer_takeLiteral _
  have passed := (again.more fun ended => TokenKind.noConfusion ended).length_lt
  have behind := again.scan.2.length_le
  rw [scanned]
  exact Nat.lt_of_le_of_lt behind passed

theorem skips_regularExpression
    (slash : ∀ l, at_ l → l.kind = .mark .slash ∨ l.kind = .mark .slashEquals) :
    SkipsAt text at_ [] regularExpression closed where
  notes := (Notes.rescan _ _).bind fun _ => notes_takeLiteral
  walks := fun s alert here quiet => by
    obtain ⟨lexer, readings⟩ := rescan_reads Lexer.rescanSlash .unterminatedRegularExpression s
    have scanned : (regularExpression s).2.lexer = s.lexer.rescanSlash.scan := by
      rw [← lexer]
      exact lexer_takeLiteral _
    obtain ⟨new, read, balanced⟩ :=
      (quiet.split (Notes.rescan Lexer.rescanSlash _ s) (notes_takeLiteral _)).1.balanced
    obtain rfl : new = [s.lexer.rescanSlash] :=
      List.append_cancel_right (read.symm.trans readings)
    have mark := slash _ here
    have loose : s.lexer.IsLoose := by
      rcases mark with mark | mark
      · exact Lexer.isLoose_of_kind mark rfl
      · exact Lexer.isLoose_of_kind mark rfl
    have again := alert.sits.rescanSlash
    -- what stands behind the slash is read alike, wherever the expression ends
    have stop : (readPiece s.lexer.rescanSlash.first).stop = s.lexer.here := by
      rw [rescanSlash_first]
      refine (alert.sits.piece fun k literal => ?_).2
      rcases mark with mark | mark
      · exact TokenKind.noConfusion (mark.symm.trans literal)
      · exact TokenKind.noConfusion (mark.symm.trans literal)
    have behind : Lexer.scan { s.lexer.rescanSlash with
        here := (readPiece s.lexer.rescanSlash.first).stop } = s.lexer.scan :=
      Lexer.scan_congr (again.text_eq.trans alert.sits.text_eq.symm)
        (again.skips.trans alert.sits.skips.symm) stop
    refine ⟨[], rfl, fun outer within => .turn (.loose loose) within ?_⟩
    rw [scanned, ← behind]
    exact balanced _ (List.mem_singleton_self _) (rescanSlash_literal mark) outer within

/-! ### Templates -/

def templateSpan (start : Nat) (spans : List Child) (value : Child) (rest : Bool × Child) :
    Parser (ForInStep (List Child)) := do
  let span ← add .templateSpan start (.templateSpan value rest.2)
  return if rest.1 then .done (span :: spans) else .yield (span :: spans)

theorem templateSpanStep_eq (spans : List Child) :
    templateSpanStep sub spans = (do
      let start ← tokenStart
      let value ← within .allowIn (expression sub)
      if ← atMark .closeBrace then templateRest >>= templateSpan start spans value
      else
        expectMark .closeBrace
        return .done spans) := rfl

def templateOpen : ForInStep (List Child) → Option (List Opening)
  | .done _ => some []
  | .yield _ => some [.substitution]

theorem notes_templateSpan (start : Nat) (spans : List Child) (value : Child) (rest : Bool × Child) :
    Notes (templateSpan start spans value rest) :=
  ((Notes.looks looks_previousEnd).bind fun _ => .growing _).bind fun _ => .pure _

theorem skips_templateSpan (start : Nat) (spans : List Child) (value : Child) (rest : Bool × Child) :
    Skips text (if rest.1 then [] else [.substitution]) (templateSpan start spans value rest)
      templateOpen := by
  refine .call (.add fun _ => rfl) fun span => .pure ?_
  cases rest.1 <;> rfl

theorem skips_templateSpanStep (hsub : SkipsPhrases text sub) (spans : List Child) :
    Skips text [.substitution] (templateSpanStep sub spans) templateOpen := by
  rw [templateSpanStep_eq]
  refine .look looks_tokenStart fun start => .call (.within _ (skips_expression hsub)) fun value => ?_
  refine .isAt (.bind (skips_templateRest fun l here => here.2)
    (notes_templateSpan start spans value) fun rest o answered => ?_)
    (.expectMissing (fun l here => here.2) (.pure _))
  obtain rfl := Option.some.inj answered
  exact skips_templateSpan start spans value rest

theorem shorter_templateSpanStep (hsub : SkipsPhrases text sub) {spans spans' : List Child}
    {s : ParserState} (alert : s.Alert text) (quiet : s.Quiet (templateSpanStep sub spans s).2)
    (goesOn : (templateSpanStep sub spans s).1 = .yield spans') :
    (templateSpanStep sub spans s).2.lexer.first.rest.length < s.lexer.first.rest.length := by
  have inner : Skips text [] (within .allowIn (expression sub)) closed :=
    .within _ (skips_expression hsub)
  let start := s.lexer.first.offset
  let value := (within .allowIn (expression sub) s).1
  let s₁ := (within .allowIn (expression sub) s).2
  have unfolded : templateSpanStep sub spans s =
      (if s₁.lexer.kind == .mark .closeBrace then templateRest >>= templateSpan start spans value
        else expectMark .closeBrace >>= fun _ => pure (.done spans) : Parser _) s₁ := rfl
  rw [unfolded] at quiet goesOn ⊢
  split at goesOn
  · next brace =>
    rw [if_pos brace] at quiet ⊢
    have notes : Notes (templateRest >>= templateSpan start spans value) :=
      notes_templateRest.bind (notes_templateSpan start spans value)
    obtain ⟨first, -⟩ := quiet.split (inner.notes s) (notes s₁)
    obtain ⟨there, reaches⟩ := inner.alert alert trivial first
    exact Nat.lt_of_lt_of_le (shorter_templateRest there (eq_of_beq brace)) reaches.length_le
  · cases goesOn

/-- Substitutions are read until a template ends: each step that goes on has passed a token, so the
bound is never used up before that. -/
theorem walk_templateSpans (hsub : SkipsPhrases text sub) {s : ParserState} (alert : s.Alert text)
    (bound : List Char) (enough : s.lexer.first.rest.length ≤ bound.length) (spans : List Child)
    (quiet : s.Quiet (repeatWithin (templateSpanStep sub) bound spans s).2)
    {outer : List Opening} (within : outer ≠ []) :
    Walk s.lexer (.substitution :: outer)
      (repeatWithin (templateSpanStep sub) bound spans s).2.lexer outer := by
  have step (spans : List Child) := skips_templateSpanStep hsub spans
  have notes (spans : List Child) : Notes (templateSpanStep sub spans) := (step spans).notes
  induction bound generalizing spans s with
  | nil =>
    cases answer : (templateSpanStep sub spans s).1 with
    | done spans' =>
      rw [repeatWithin_done answer] at quiet ⊢
      exact (step spans).walk alert trivial quiet (by rw [answer]; rfl) within
    | yield spans' =>
      have last : (repeatWithin (templateSpanStep sub) [] spans s).2 =
          (templateSpanStep sub spans s).2 := by
        rw [repeatWithin, run_bind (Prod.ext answer rfl)]
        rfl
      have shorter := shorter_templateSpanStep hsub alert (last ▸ quiet) answer
      rw [List.length_nil] at enough
      omega
  | cons c bound ih =>
    cases answer : (templateSpanStep sub spans s).1 with
    | done spans' =>
      rw [repeatWithin_done answer] at quiet ⊢
      exact (step spans).walk alert trivial quiet (by rw [answer]; rfl) within
    | yield spans' =>
      rw [repeatWithin_yield answer] at quiet ⊢
      have rest : Notes (repeatWithin (templateSpanStep sub) bound spans') :=
        Notes.closed.repeatWithin notes bound spans'
      obtain ⟨first, later⟩ := quiet.split (notes spans s) (rest _)
      have there := ((step spans).alert alert trivial first).1
      have shorter := shorter_templateSpanStep hsub alert first answer
      rw [List.length_cons] at enough
      have onward := (step spans).walk alert trivial first (by rw [answer]; rfl) within
      exact onward.trans (ih there (by omega) spans' later)

theorem skips_templateSpans (hsub : SkipsPhrases text sub) (spans : List Child) :
    SkipsAt text at_ [.substitution] (repeating (templateSpanStep sub) spans) closed where
  notes := Notes.closed.repeating (.looks looks_textLeft)
    (fun spans => (skips_templateSpanStep hsub spans).notes) spans
  walks := fun _ alert _ quiet =>
    ⟨[], rfl, fun _ within => walk_templateSpans hsub alert _ (Nat.le_refl _) spans quiet within⟩

theorem skips_template (hsub : SkipsPhrases text sub)
    (literal : ∀ l, at_ l → l.kind = .literal .template ∨ l.kind = .literal .templateHead) :
    SkipsAt text at_ [] (template sub) closed := by
  have whole (l : Lexer) (here : at_ l ∧ l.kind = .literal .template) : l.kind.Turns [] [] :=
    .loose (Lexer.isLoose_of_kind here.2 rfl)
  have opens (l : Lexer) (here : at_ l ∧ l.kind ≠ .literal .template) :
      l.kind.Turns [] [.substitution] :=
    .opens (by rw [(literal l here.1).resolve_left here.2]; rfl)
  refine .isAt (skips_takeLiteral whole fun _ => rfl) (.look looks_tokenStart fun start => ?_)
  refine .step (skips_takeLiteral opens fun _ => rfl) fun head => ?_
  exact .step (skips_templateSpans hsub []) fun spans => .add fun _ => rfl

/-! ### Brackets -/

theorem skips_parenthesized (hsub : SkipsPhrases text sub)
    (group : ∀ l, at_ l → l.kind = .mark .openParen) :
    SkipsAt text at_ [] (parenthesized sub) closed := by
  have opens (l : Lexer) (here : at_ l) : l.kind.Turns [] [.paren] :=
    .opens (by rw [group l here]; rfl)
  refine .look looks_tokenStart fun start => .advance opens ?_
  refine .call (.within _ (skips_expression hsub)) fun value => ?_
  exact .expectMark (.closes rfl) (.add fun _ => rfl)

theorem skips_spreadOrAssignment (hsub : SkipsPhrases text sub) :
    SkipsAt text at_ [] (spreadOrAssignment sub k) closed := by
  refine .isAt (.look looks_tokenStart fun start => ?_) (skips_assignment_sub hsub)
  refine .advanceLoose (fun l here => Lexer.isLoose_of_kind here.2 rfl) ?_
  exact (skips_assignmentOrReport hsub).call fun value => .add fun _ => rfl

theorem skips_arrayStep (hsub : SkipsPhrases text sub) (elements : List Child) :
    Skips text [] (arrayStep sub elements) closed := by
  refine .kind fun k => decided (fun _ => .pure rfl) fun _ => decided (fun comma => ?_) fun _ => ?_
  · exact (skips_hole fun l here => here.2.trans comma).call fun node => .pure rfl
  refine (skips_spreadOrAssignment hsub).call fun element => ?_
  refine decided (fun _ => .report (.pure _)) fun _ => ?_
  exact .acceptMark (.loose rfl) (.pure rfl) (.pure rfl)

theorem skips_arrayLiteral (hsub : SkipsPhrases text sub)
    (bracket : ∀ l, at_ l → l.kind = .mark .openBracket) :
    SkipsAt text at_ [] (arrayLiteral sub) closed := by
  have opens (l : Lexer) (here : at_ l) : l.kind.Turns [] [.bracket] :=
    .opens (by rw [bracket l here]; rfl)
  refine .look looks_tokenStart fun start => .advance opens ?_
  refine .call (.within _ (.repeating (skips_arrayStep hsub) [])) fun elements => ?_
  exact .expectMark (.closes rfl) (.add fun _ => rfl)

/-! ### Objects -/

theorem skips_shorthandProperty (hsub : SkipsPhrases text sub) {name : Child} :
    SkipsAt text at_ [] (shorthandProperty sub start name) closed := by
  refine (skips_acceptMark rfl).call fun hasEquals => ?_
  refine merged <| .call (either (skips_assignmentOrReport hsub) (.pure rfl)) fun value => ?_
  exact .add fun _ => rfl

theorem skips_namedObjectMember (hsub : SkipsPhrases text sub) (marks : MethodMarks)
    (shorthand : Bool) {name : Child} :
    SkipsAt text at_ [] (namedObjectMember sub start marks shorthand name) closed := by
  refine .isAt (skips_method hsub none marks).of_found (.acceptMark (.loose rfl) ?_ ?_)
  · exact (skips_assignmentOrReport hsub).call fun value => .add fun _ => rfl
  · rw [if_neg Bool.false_ne_true]
    refine decided (fun _ => skips_shorthandProperty hsub) fun _ => ?_
    exact .expectMark (.loose rfl) (.pure rfl)

theorem skips_objectMember (hsub : SkipsPhrases text sub) :
    SkipsAt text at_ [] (objectMember sub) closed := by
  refine .look looks_tokenStart fun start => .isAt (skips_spreadOrAssignment hsub) ?_
  refine skips_methodMarks.call fun marks => ?_
  refine merged <| .look (either (Looks.closed.pure _) looks_atIdentifier) fun shorthand => ?_
  refine (skips_propertyName hsub).of_found.call fun name => ?_
  exact decided (fun _ => .report (.pure none)) fun _ =>
    skips_namedObjectMember hsub marks shorthand

theorem skips_objectMemberStep (hsub : SkipsPhrases text sub) (members : List Child) :
    Skips text [] (objectMemberStep sub members) closed := by
  refine .look looks_kind fun k => decided (fun _ => .pure rfl) fun _ => ?_
  refine (skips_objectMember hsub).call fun member => decided (fun _ => .pure rfl) fun _ => ?_
  exact .acceptMark (.loose rfl) (.pure rfl) (.pure rfl)

theorem skips_objectLiteral (hsub : SkipsPhrases text sub) :
    SkipsAt text at_ [] (objectLiteral sub) closed := by
  refine .look looks_tokenCursor fun brace => .expectMark (.opens rfl) ?_
  refine .call (.within _ (.repeating (skips_objectMemberStep hsub) [])) fun members => ?_
  exact .expectMark (.closes rfl) (.look (looks_spansLines _) fun multiLine => .add fun _ => rfl)

/-! ### All together -/

theorem skips_importExpression (loose : ∀ l, at_ l → l.IsLoose) :
    SkipsAt text at_ [] importExpression closed := by
  refine .look looks_tokenStart fun start => .look looks_tokenEnd fun stop => ?_
  refine .advanceLoose loose (.acceptMark (.loose rfl) ?_ ?_)
  · exact skips_identifierName.of_found.call fun name => .add fun _ => rfl
  · exact .isAt (.addToken fun _ => rfl) (.expectMissing (fun l here => here.2) (.growing _))

theorem skips_nameOrReport : SkipsAt text at_ [] nameOrReport closed :=
  .look looks_atIdentifier fun _ =>
    decided (fun _ => skips_identifier.of_found) fun _ => .report (.pure none)

theorem skips_primary (hsub : SkipsPhrases text sub) : SkipsAt text at_ [] (primary sub) closed := by
  have literal {n : LiteralKind} (loose : (TokenKind.literal n).isLoose = true) :
      SkipsAt text (fun l => at_ l ∧ l.kind = .literal n) [] takeLiteral closed :=
    skips_takeLiteral (fun l here => .loose (Lexer.isLoose_of_kind here.2 loose)) fun _ => rfl
  have word {w : Keyword} : SkipsAt text (fun l => at_ l ∧ l.kind = .word w) [] takeToken closed :=
    skips_takeToken fun l here => Lexer.isLoose_word here.2
  refine .kind fun k => ?_
  split
  · exact literal rfl
  · exact literal rfl
  · exact literal rfl
  · exact skips_template hsub fun l here => .inl here.2
  · exact skips_template hsub fun l here => .inr here.2
  · exact word
  · exact word
  · exact word
  · exact word
  · exact word
  · exact skips_parenthesized hsub fun l here => here.2
  · exact skips_arrayLiteral hsub fun l here => here.2
  · exact skips_objectLiteral hsub
  · exact skips_functionExpression hsub
  · refine .look looks_asyncFunctionAhead fun found => ?_
    exact decided (fun _ => skips_functionExpression hsub) fun _ => skips_nameOrReport
  · exact skips_classOf hsub true
  · exact skips_importExpression fun l here => Lexer.isLoose_word here.2
  · exact skips_regularExpression fun l here => .inl here.2
  · exact skips_regularExpression fun l here => .inr here.2
  · exact skips_identifierName.of_found
  · exact skips_nameOrReport

end PathGuard.Parser
