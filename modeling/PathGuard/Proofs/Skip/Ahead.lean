import PathGuard.Proofs.Run.Parsed
import PathGuard.Proofs.Skip.Walk
import PathGuard.Proofs.Token.Trivia
/-!
# Looking ahead comes to its end and changes nothing

Looking ahead only puts back the lexer, so it changes nothing because what runs inside moves the lexer
and nothing else. How often a token is passed there is not bounded beforehand: `GroupEnds` is the loop
that looks for the end of a group, without a bound. Every round that goes on passes the current token,
also where that token is first read again, so less of the text is left. Hence the loop ends from every
token of a text and whatever is open, and the bound with which it runs never cuts it off.
-/

namespace PathGuard

open PathGuard.Parser (Opening)

/-! ### Trivia -/

namespace Lexer

theorem skipPieces_isTrivia (bound : List Char) (c : Cursor) (flags : TokenFlags)
    (enough : c.rest.length ≤ bound.length) :
    (skipPieces bound c flags).2.1.kind.isTrivia = false := by
  induction bound generalizing c flags with
  | nil =>
    have ended : c.rest = [] := List.length_eq_zero_iff.1 (Nat.le_zero.1 enough)
    rw [skipPieces, readPiece_nil ended]
    rfl
  | cons _ bound ih =>
    rw [skipPieces]
    split
    · next trivia =>
      have more : c.rest ≠ [] := by
        intro ended
        rw [readPiece_nil ended] at trivia
        cases trivia
      have shorter := (passes_readPiece more).length_lt
      rw [List.length_cons] at enough
      exact ih _ _ (by omega)
    · next plain => exact Bool.eq_false_iff.2 plain

theorem scan_isTrivia {l : Lexer} (skips : l.skipTrivia = true) : l.scan.kind.isTrivia = false := by
  unfold scan
  rw [skips, if_pos rfl]
  exact skipPieces_isTrivia _ _ _ (Nat.le_refl _)

end Lexer

/-! ### The end of a group -/

/-- Looking for the end of a group, as often as it takes: from the token of a lexer on, where `opened`
is open, innermost first, the answer is `closed` and the lexer has come to the last one. -/
inductive GroupEnds : Lexer → (opened : List Opening) → (closed : Bool) → Lexer → Prop where
  | ended {l : Lexer} {opened : List Opening} (here : l.kind = .endOfFile) :
      GroupEnds l opened false l
  | mismatched {l : Lexer} {opened : List Opening} {p : Opening} (closes : l.kind.closing? = some p)
      (wrong : opened.head? ≠ some p) (code : p = .brace → opened.head? ≠ some .substitution) :
      GroupEnds l opened false l
  | closed {l : Lexer} (paren : l.kind = .mark .closeParen) : GroupEnds l [.paren] true l.scan
  | turn {l l' : Lexer} {opened opened' : List Opening} {closed : Bool}
      (turns : l.kind.Turns opened opened') (goesOn : l.kind = .mark .closeParen → opened' ≠ [])
      (later : GroupEnds l.scan opened' closed l') : GroupEnds l opened closed l'
  | middle {l l' : Lexer} {opened : List Opening} {closed : Bool}
      (brace : l.kind = .mark .closeBrace) (goesOn : l.rescanTemplate.kind ≠ .literal .templateTail)
      (later : GroupEnds l.rescanTemplate.scan (.substitution :: opened) closed l') :
      GroupEnds l (.substitution :: opened) closed l'
  | tail {l l' : Lexer} {opened : List Opening} {closed : Bool}
      (brace : l.kind = .mark .closeBrace) (ends : l.rescanTemplate.kind = .literal .templateTail)
      (later : GroupEnds l.rescanTemplate.scan opened closed l') :
      GroupEnds l (.substitution :: opened) closed l'

theorem TokenKind.turns_cases (k : TokenKind) :
    k = .endOfFile ∨ k.isLoose = true ∨ (∃ p, k.opening? = some p) ∨ ∃ p, k.closing? = some p := by
  by_cases ended : k = .endOfFile
  · exact .inl ended
  cases opens : k.opening? with
  | some p => exact .inr (.inr (.inl ⟨p, rfl⟩))
  | none =>
    cases closes : k.closing? with
    | some p => exact .inr (.inr (.inr ⟨p, rfl⟩))
    | none =>
      have loose : k.isLoose = (k.opening?.isNone && k.closing?.isNone) := by
        unfold TokenKind.isLoose
        split
        · exact absurd rfl ended
        · rfl
      rw [opens, closes] at loose
      exact .inr (.inl loose)

theorem TokenKind.of_closing?_eq_brace {k : TokenKind} (closes : k.closing? = some .brace) :
    k = .mark .closeBrace := by
  unfold closing? at closes
  split at closes
  · cases closes
  · cases closes
  · rfl
  · cases closes

theorem TokenKind.closing?_closeParen {k : TokenKind} {p : Opening} (closes : k.closing? = some p)
    (paren : k = .mark .closeParen) : p = .paren := by
  subst paren
  exact (Option.some.inj closes).symm

namespace GroupEnds

variable {text : List Char} {l l' : Lexer} {opened : List Opening} {closed : Bool}

/-- From every token, whatever is open, the end of the group is found or missed after finitely many
tokens: in every round that goes on, less of the text is left. -/
theorem exists_of_sits (sits : l.Sits text) (opened : List Opening) :
    ∃ closed l', GroupEnds l opened closed l' := by
  generalize left : l.first.rest.length = n
  induction n using Nat.strongRecOn generalizing l opened with
  | ind n ih =>
    -- a round that goes on has passed the current token, in this reading of it or in another one
    have onward (l₁ : Lexer) (there : l₁.Sits text) (first : l₁.first = l.first)
        (notEnd : l₁.kind ≠ .endOfFile) (opened : List Opening) :
        ∃ closed l', GroupEnds l₁.scan opened closed l' := by
      have more := (there.more notEnd).length_lt
      have behind := there.scan.2.length_le
      rw [first] at more
      exact ih _ (by omega) there.scan.1 opened rfl
    have passed (opened' : List Opening) (turns : l.kind.Turns opened opened')
        (goesOn : l.kind = .mark .closeParen → opened' ≠ []) :
        ∃ closed l', GroupEnds l opened closed l' := by
      obtain ⟨closed, l', later⟩ := onward l sits rfl turns.not_end opened'
      exact ⟨closed, l', .turn turns goesOn later⟩
    rcases l.kind.turns_cases with ended | loose | ⟨p, opens⟩ | ⟨p, closes⟩
    · exact ⟨false, l, .ended ended⟩
    · exact passed opened (.loose loose) fun paren => by rw [paren] at loose; cases loose
    · exact passed (p :: opened) (.opens opens) fun _ => List.cons_ne_nil _ _
    · by_cases fits : opened.head? = some p
      · obtain ⟨outer, rfl⟩ := List.head?_eq_some_iff.1 fits
        by_cases last : l.kind = .mark .closeParen ∧ outer = []
        · obtain ⟨paren, rfl⟩ := last
          obtain rfl := TokenKind.closing?_closeParen closes paren
          exact ⟨true, l.scan, .closed paren⟩
        · exact passed outer (.closes closes) fun paren none_ => last ⟨paren, none_⟩
      · by_cases code : p = .brace ∧ opened.head? = some .substitution
        · obtain ⟨rfl, open_⟩ := code
          obtain ⟨outer, rfl⟩ := List.head?_eq_some_iff.1 open_
          have brace := TokenKind.of_closing?_eq_brace closes
          have again (opened : List Opening) : ∃ closed l',
              GroupEnds l.rescanTemplate.scan opened closed l' :=
            onward _ (sits.rescanTemplate brace) rfl (fun ended => TokenKind.noConfusion ended) opened
          by_cases ends : l.rescanTemplate.kind = .literal .templateTail
          · obtain ⟨closed, l', later⟩ := again outer
            exact ⟨closed, l', .tail brace ends later⟩
          · obtain ⟨closed, l', later⟩ := again (.substitution :: outer)
            exact ⟨closed, l', .middle brace ends later⟩
        · exact ⟨false, l, .mismatched closes fits fun brace open_ => code ⟨brace, open_⟩⟩

end GroupEnds

/-! ### The loop with its bound -/

namespace Parser

variable {text : List Char} {s : ParserState} {l l' : Lexer} {opened : List Opening} {closed : Bool}

theorem skipGroupWithin_mismatched {p : Opening} (closes : l.kind.closing? = some p)
    (wrong : opened.head? ≠ some p) (code : p = .brace → opened.head? ≠ some .substitution)
    (bound : List Char) :
    skipGroupWithin bound opened { s with lexer := l } = (false, { s with lexer := l }) := by
  cases bound with
  | nil => rfl
  | cons c bound =>
    have kind : Parser.kind { s with lexer := l } = (l.kind, { s with lexer := l }) := rfl
    unfold skipGroupWithin
    rw [run_bind kind]
    generalize l.kind = k at closes
    unfold TokenKind.closing? at closes
    split at closes
    · obtain rfl := Option.some.inj closes
      dsimp only
      split
      · exact absurd rfl wrong
      · exact absurd rfl wrong
      · rfl
    · obtain rfl := Option.some.inj closes
      dsimp only
      split
      · exact absurd rfl wrong
      · rfl
    · obtain rfl := Option.some.inj closes
      dsimp only
      split
      · exact absurd rfl (code rfl)
      · exact absurd rfl wrong
      · rfl
    · cases closes

/-- The bound with which the loop runs never cuts it off. -/
theorem skipFrom_of_groupEnds (ends : GroupEnds l opened closed l') (sits : l.Sits text) :
    skipFrom s l opened = (closed, { s with lexer := l' }) := by
  induction ends with
  | ended here => exact skipGroupWithin_ended (s := { s with lexer := _ }) here _ _
  | mismatched closes wrong code => exact skipGroupWithin_mismatched closes wrong code _
  | closed paren => exact skipFrom_last sits paren
  | turn turns goesOn _ ih =>
    rw [skipFrom_turn sits turns goesOn]
    exact ih sits.scan.1
  | middle brace goesOn _ ih =>
    rw [skipFrom_substitution sits brace (beq_eq_false_iff_ne.2 goesOn)]
    exact ih (sits.rescanTemplate brace).scan.1
  | tail brace ends _ ih =>
    rw [skipFrom_substitution sits brace (beq_iff_eq.2 ends)]
    exact ih (sits.rescanTemplate brace).scan.1

end Parser

theorem GroupEnds.unique {text : List Char} {l l₁ l₂ : Lexer} {opened : List Opening}
    {closed₁ closed₂ : Bool} (h₁ : GroupEnds l opened closed₁ l₁) (h₂ : GroupEnds l opened closed₂ l₂)
    (sits : l.Sits text) : closed₁ = closed₂ ∧ l₁ = l₂ := by
  have same := (Parser.skipFrom_of_groupEnds (s := .start text) h₁ sits).symm.trans
    (Parser.skipFrom_of_groupEnds h₂ sits)
  exact ⟨congrArg Prod.fst same, congrArg (fun found => found.2.lexer) same⟩

/-! ### Looking ahead while parsing -/

/-- What looking ahead is from a state in a text. `group` and `skips` say that looking for the end of
a group ends from every token of the text, whatever is open, and that the parser comes to where it
ends; such a search begins at the current token or at the next one. -/
structure LooksAhead (text : List Char) (s : ParserState) : Prop where
  peek : (Parser.peek s).2 = s
  arrow : (Parser.arrowAhead s).2 = s
  letDeclaration : (Parser.letDeclarationAhead s).2 = s
  asyncFunction : (Parser.asyncFunctionAhead s).2 = s
  importExpression : (Parser.importExpressionAhead s).2 = s
  memberMark : (Parser.atMemberMark s).2 = s
  here : s.lexer.Sits text
  next : ∀ l : Lexer, l.Sits text → l.scan.Sits text ∧ l.scan.kind.isTrivia = false
  group : ∀ l : Lexer, l.Sits text → ∀ opened,
    ∃! stop : Bool × Lexer, GroupEnds l opened stop.1 stop.2
  skips : ∀ l : Lexer, l.Sits text → ∀ closed l', GroupEnds l [] closed l' →
    Parser.skipGroup { s with lexer := l } = (closed, { s with lexer := l' })

open PathGuard.Parser PathGuard.ParserState

/-- In every state that a parser comes to, looking ahead ends and leaves everything as it was. -/
theorem looksAhead_of_moves {text : List Char} {s : ParserState}
    (comes : Moves (firstState text) s) : LooksAhead text s where
  peek := looks_peek s
  arrow := looks_arrowAhead s
  letDeclaration := looks_letDeclarationAhead s
  asyncFunction := looks_asyncFunctionAhead s
  importExpression := looks_importExpressionAhead s
  memberMark := looks_atMemberMark s
  here := (comes.forward (fit_firstState text).standing).standing.footing.sits
  next l sits := ⟨sits.scan.1, Lexer.scan_isTrivia sits.skips⟩
  group l sits opened := by
    obtain ⟨closed, l', ends⟩ := GroupEnds.exists_of_sits sits opened
    refine ⟨⟨closed, l'⟩, ends, fun other ends' => ?_⟩
    obtain ⟨sameAnswer, sameLexer⟩ := ends'.unique ends sits
    exact Prod.ext sameAnswer sameLexer
  skips l sits closed l' ends := skipFrom_of_groupEnds ends sits

/-- A group that is never closed, with a substitution in it that is not closed either. -/
theorem looksAhead_of_moves_unclosed :
    let text := "a ([\x60b$\x7b(c".toList
    let s := (advance (firstState text)).2
    Moves (firstState text) s ∧ s.lexer.kind = .mark .openParen ∧ (arrowAhead s).1 = none ∧
      LooksAhead text s := by
  intro text s
  have comes : Moves (firstState text) s := .single .advance
  exact ⟨comes, by decide +kernel, by decide +kernel, looksAhead_of_moves comes⟩

end PathGuard
