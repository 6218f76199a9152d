import PathGuard.Proofs.Run.Loop
/-!
# Walking over a group

Looking for the end of a group, a parser walks over raw tokens and keeps a record of what is open. A
closing brace is read again as template text only where a substitution is open innermost. A slash is
never read again, so a regular expression is passed as the raw tokens that its text consists of.

`Walk l opened l' opened'` says that such a walk comes from one token to another one without leaving
the group.
-/

namespace PathGuard

open PathGuard.Parser (Opening)

/-! ### What tokens open and close -/

namespace TokenKind

def opening? : TokenKind → Option Opening
  | .mark .openParen => some .paren
  | .mark .openBracket => some .bracket
  | .mark .openBrace => some .brace
  | .literal .templateHead => some .substitution
  | _ => none

def closing? : TokenKind → Option Opening
  | .mark .closeParen => some .paren
  | .mark .closeBracket => some .bracket
  | .mark .closeBrace => some .brace
  | _ => none

/-- Whether a token is passed whatever is open: it opens nothing, closes nothing, and is not the end
of the text. -/
def isLoose : TokenKind → Bool
  | .endOfFile => false
  | k => k.opening?.isNone && k.closing?.isNone

/-- How passing a token changes what is open. -/
inductive Turns (k : TokenKind) : List Opening → List Opening → Prop where
  | loose {opened : List Opening} (loose : k.isLoose = true) : Turns k opened opened
  | opens {p : Opening} {opened : List Opening} (opens : k.opening? = some p) :
      Turns k opened (p :: opened)
  | closes {p : Opening} {opened : List Opening} (closes : k.closing? = some p) :
      Turns k (p :: opened) opened

theorem isLoose_of_isIdentifierOrWord {k : TokenKind} (name : k.isIdentifierOrWord = true) :
    k.isLoose = true := by
  cases k with
  | identifier | word => rfl
  | _ => cases name

theorem Turns.not_end {k : TokenKind} {opened opened' : List Opening} (h : k.Turns opened opened') :
    k ≠ .endOfFile := by
  rintro rfl
  cases h with
  | loose loose => cases loose
  | opens opens => cases opens
  | closes closes => cases closes

theorem Turns.append {k : TokenKind} {opened opened' : List Opening} (h : k.Turns opened opened')
    (outer : List Opening) : k.Turns (opened ++ outer) (opened' ++ outer) := by
  cases h with
  | loose loose => exact .loose loose
  | opens opens => exact .opens opens
  | closes closes => exact .closes closes

def turned? (k : TokenKind) (opened : List Opening) : Option (List Opening) :=
  if k.isLoose then some opened
  else
    match k.opening?, k.closing?, opened with
    | some p, _, _ => some (p :: opened)
    | none, some p, q :: outer => if p = q then some outer else none
    | _, _, _ => none

theorem turns_of_turned? {k : TokenKind} {opened opened' : List Opening}
    (turned : k.turned? opened = some opened') : k.Turns opened opened' := by
  unfold turned? at turned
  split at turned
  · next loose =>
    obtain rfl := Option.some.inj turned
    exact .loose loose
  · split at turned
    · next opens =>
      obtain rfl := Option.some.inj turned
      exact .opens opens
    · next closes =>
      split at turned
      · next same =>
        subst same
        obtain rfl := Option.some.inj turned
        exact .closes closes
      · cases turned
    · cases turned

end TokenKind

namespace Lexer

def IsLoose (l : Lexer) : Prop := l.kind.isLoose = true

theorem isLoose_of_kind {l : Lexer} {k : TokenKind} (here : l.kind = k) (loose : k.isLoose = true) :
    l.IsLoose := by
  rw [← here] at loose
  exact loose

theorem isLoose_word {l : Lexer} {w : Keyword} (here : l.kind = .word w) : l.IsLoose :=
  isLoose_of_kind here rfl

end Lexer

/-- A walk over raw tokens that stays within a group: something is open behind every token. -/
inductive Walk : Lexer → List Opening → Lexer → List Opening → Prop where
  | refl (l : Lexer) (opened : List Opening) : Walk l opened l opened
  | turn {l l' : Lexer} {opened opened₁ opened' : List Opening}
      (turns : l.kind.Turns opened opened₁) (within : opened₁ ≠ [])
      (later : Walk l.scan opened₁ l' opened') : Walk l opened l' opened'
  | middle {l l' : Lexer} {opened opened' : List Opening} (brace : l.kind = .mark .closeBrace)
      (goesOn : l.rescanTemplate.kind ≠ .literal .templateTail)
      (later : Walk l.rescanTemplate.scan (.substitution :: opened) l' opened') :
      Walk l (.substitution :: opened) l' opened'
  | tail {l l' : Lexer} {opened opened' : List Opening} (brace : l.kind = .mark .closeBrace)
      (ends : l.rescanTemplate.kind = .literal .templateTail)
      (later : Walk l.rescanTemplate.scan opened l' opened') :
      Walk l (.substitution :: opened) l' opened'

namespace Walk

variable {text : List Char} {l l' l'' : Lexer} {opened opened' opened'' : List Opening}

theorem trans (h : Walk l opened l' opened') (h' : Walk l' opened' l'' opened'') :
    Walk l opened l'' opened'' := by
  induction h with
  | refl => exact h'
  | turn turns within _ ih => exact .turn turns within (ih h')
  | middle brace goesOn _ ih => exact .middle brace goesOn (ih h')
  | tail brace ends _ ih => exact .tail brace ends (ih h')

theorem forward (h : Walk l opened l' opened') (sits : l.Sits text) :
    l'.Sits text ∧ l.first.Reaches l'.first := by
  induction h with
  | refl => exact ⟨sits, .refl _⟩
  | turn _ _ _ ih =>
    obtain ⟨next, behind⟩ := sits.scan
    obtain ⟨there, later⟩ := ih next
    exact ⟨there, (sits.here.trans behind).trans later⟩
  | middle brace _ _ ih | tail brace _ _ ih =>
    have again := sits.rescanTemplate brace
    obtain ⟨next, behind⟩ := again.scan
    obtain ⟨there, later⟩ := ih next
    exact ⟨there, (again.here.trans behind).trans later⟩

end Walk

namespace Lexer

/-- Whether so many raw tokens lead from a token to another one and close all that is open. -/
def leadsTo (stop : Lexer) : (tokens : Nat) → (opened : List Opening) → Lexer → Bool
  | 0, opened, l => opened.isEmpty && l == stop
  | tokens + 1, opened, l =>
    match l.kind.turned? opened with
    | some opened' => leadsTo stop tokens opened' l.scan
    | none => false

theorem walk_of_leadsTo {stop l : Lexer} {tokens : Nat} {opened outer : List Opening}
    (leads : leadsTo stop tokens opened l = true) (within : outer ≠ []) :
    Walk l (opened ++ outer) stop outer := by
  induction tokens generalizing l opened with
  | zero =>
    obtain ⟨none_, there⟩ := Bool.and_eq_true_iff.1 leads
    obtain rfl := List.isEmpty_iff.1 none_
    obtain rfl := eq_of_beq there
    exact .refl _ _
  | succ tokens ih =>
    unfold leadsTo at leads
    split at leads
    · next turned =>
      have turns := (TokenKind.turns_of_turned? turned).append outer
      exact .turn turns (List.append_ne_nil_of_right_ne_nil _ within) (ih leads)
    · cases leads

end Lexer

/-! ### Skipping along a walk -/

namespace Parser

open ParserState

variable {text : List Char} {s : ParserState} {l l₁ : Lexer} {opened opened' : List Opening}

/-- Looking for the end of the group from a token on. -/
def skipFrom (s : ParserState) (l : Lexer) (opened : List Opening) : Bool × ParserState :=
  skipGroupWithin l.first.rest opened { s with lexer := l }

/-- Behind a token, in any reading of it, the bound is still large enough. -/
theorem skipFrom_step (sits : l₁.Sits text) (first : l₁.first = l.first)
    (notEnd : l₁.kind ≠ .endOfFile)
    (step : ∀ c bound, skipGroupWithin (c :: bound) opened { s with lexer := l } =
      skipGroupWithin bound opened' { s with lexer := l₁.scan }) :
    skipFrom s l opened = skipFrom s l₁.scan opened' := by
  have shorter : l₁.scan.first.rest.length < l.first.rest.length := by
    have more := (sits.more notEnd).length_lt
    have behind := sits.scan.2.length_le
    rw [first] at more
    omega
  unfold skipFrom
  cases left : l.first.rest with
  | nil =>
    rw [left] at shorter
    cases shorter
  | cons c bound =>
    rw [left, List.length_cons] at shorter
    rw [step c bound]
    exact skipGroupWithin_congr sits.scan.1 (Nat.le_of_lt_succ shorter) (Nat.le_refl _)

theorem skipGroupWithin_turn (turns : l.kind.Turns opened opened')
    (goesOn : l.kind = .mark .closeParen → opened' ≠ []) (c : Char) (bound : List Char) :
    skipGroupWithin (c :: bound) opened { s with lexer := l } =
      skipGroupWithin bound opened' { s with lexer := l.scan } := by
  have kind : Parser.kind { s with lexer := l } = (l.kind, { s with lexer := l }) := rfl
  conv => lhs; unfold skipGroupWithin
  rw [run_bind kind]
  generalize l.kind = k at turns goesOn
  cases turns with
  | loose loose =>
    split
    all_goals first | rfl | exact Bool.noConfusion loose
  | opens opens =>
    unfold TokenKind.opening? at opens
    split at opens
    all_goals cases opens
    all_goals rfl
  | closes closes =>
    unfold TokenKind.closing? at closes
    split at closes
    · obtain ⟨q, outer, rfl⟩ := List.exists_cons_of_ne_nil (goesOn rfl)
      cases closes
      rfl
    all_goals cases closes
    all_goals rfl

/-- Where a substitution is open innermost, its brace is read again as the rest of the template. -/
theorem skipGroupWithin_substitution {ends : Bool} (brace : l.kind = .mark .closeBrace)
    (again : (l.rescanTemplate.kind == .literal .templateTail) = ends) (c : Char)
    (bound : List Char) :
    skipGroupWithin (c :: bound) (.substitution :: opened) { s with lexer := l } =
      skipGroupWithin bound (if ends then opened else .substitution :: opened)
        { s with lexer := l.rescanTemplate.scan } := by
  have kind : Parser.kind { s with lexer := l } = (l.kind, { s with lexer := l }) := rfl
  subst again
  conv => lhs; unfold skipGroupWithin
  rw [run_bind kind, brace]
  rfl

theorem skipFrom_turn (sits : l.Sits text) (turns : l.kind.Turns opened opened')
    (goesOn : l.kind = .mark .closeParen → opened' ≠ []) :
    skipFrom s l opened = skipFrom s l.scan opened' :=
  skipFrom_step sits rfl turns.not_end (skipGroupWithin_turn turns goesOn)

theorem skipFrom_substitution {ends : Bool} (sits : l.Sits text) (brace : l.kind = .mark .closeBrace)
    (again : (l.rescanTemplate.kind == .literal .templateTail) = ends) :
    skipFrom s l (.substitution :: opened) =
      skipFrom s l.rescanTemplate.scan (if ends then opened else .substitution :: opened) := by
  have notEnd : l.rescanTemplate.kind ≠ .endOfFile := fun ended => TokenKind.noConfusion ended
  exact skipFrom_step (sits.rescanTemplate brace) rfl notEnd (skipGroupWithin_substitution brace again)

/-- Along a walk nothing is decided. -/
theorem skipFrom_walk {l l' : Lexer} {opened opened' : List Opening} (walk : Walk l opened l' opened')
    (sits : l.Sits text) : skipFrom s l opened = skipFrom s l' opened' := by
  induction walk with
  | refl => rfl
  | turn turns within _ ih =>
    rw [skipFrom_turn sits turns fun _ => within]
    exact ih sits.scan.1
  | middle brace goesOn _ ih =>
    rw [skipFrom_substitution sits brace (beq_eq_false_iff_ne.2 goesOn)]
    exact ih (sits.rescanTemplate brace).scan.1
  | tail brace ends _ ih =>
    rw [skipFrom_substitution sits brace (beq_iff_eq.2 ends)]
    exact ih (sits.rescanTemplate brace).scan.1

theorem skipGroupWithin_last (paren : l.kind = .mark .closeParen) (c : Char) (bound : List Char) :
    skipGroupWithin (c :: bound) [.paren] { s with lexer := l } =
      (true, { s with lexer := l.scan }) := by
  have kind : Parser.kind { s with lexer := l } = (l.kind, { s with lexer := l }) := rfl
  conv => lhs; unfold skipGroupWithin
  rw [run_bind kind, paren]
  rfl

theorem skipFrom_last (sits : l.Sits text) (paren : l.kind = .mark .closeParen) :
    skipFrom s l [.paren] = (true, { s with lexer := l.scan }) := by
  have notEnd : l.kind ≠ .endOfFile := fun ended => TokenKind.noConfusion (paren.symm.trans ended)
  obtain ⟨c, bound, left⟩ := List.exists_cons_of_ne_nil (sits.more notEnd).1
  rw [skipFrom, left]
  exact skipGroupWithin_last paren c bound

theorem skipGroup_of_walk (sits : s.lexer.Sits text) (begins : s.lexer.kind = .mark .openParen)
    {last : Lexer} (walk : Walk s.lexer.scan [.paren] last [.paren])
    (ends : last.kind = .mark .closeParen) :
    skipGroup s = (true, { s with lexer := last.scan }) := by
  have whole : Walk s.lexer [] last [.paren] :=
    .turn (.opens (by rw [begins]; rfl)) (List.cons_ne_nil _ _) walk
  have skips : skipGroup s = skipFrom s s.lexer [] := rfl
  rw [skips, skipFrom_walk whole sits]
  exact skipFrom_last (whole.forward sits).1 ends

end Parser

end PathGuard
