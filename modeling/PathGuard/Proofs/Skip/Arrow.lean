import PathGuard.Proofs.Run.Parsed
import PathGuard.Proofs.Skip.Module
/-!
# Looking ahead for an arrow

Whether a group in parentheses holds the parameters of an arrow function is found out before they are
parsed: raw tokens are skipped up to the end of the group. Where the group can be parsed as parameters,
that comes to the same end, unless a regular expression in it holds a bracket without its partner.
-/

namespace PathGuard

namespace Parser

open ParserState

variable {text : List Char} {sub : PhraseParser} {s : ParserState} {k : TokenKind}

/-! ### Parameters -/

theorem run_expect_there (here : s.lexer.kind = k) : expect k s = ((), (advance s).2) := by
  have accepted : accept k s = (true, (advance s).2) := by
    change (if (s.lexer.kind == k) = true then advance >>= fun _ => pure true else pure false :
      Parser Bool) s = _
    rw [if_pos (beq_iff_eq.2 here)]
    rfl
  rw [expect, run_bind accepted]
  rfl

theorem run_expect_missing (other : s.lexer.kind ≠ k) :
    expect k s = reportHere (.tokenExpected k) s := by
  have refused : accept k s = (false, s) := by
    change (if (s.lexer.kind == k) = true then advance >>= fun _ => pure true else pure false :
      Parser Bool) s = _
    rw [if_neg fun same => other (beq_iff_eq.1 same)]
    rfl
  rw [expect, run_bind refused]
  rfl

theorem alert_advance (sits : s.lexer.Sits text) (notEnd : s.lexer.kind ≠ .endOfFile)
    (noted : ∀ n, s.lastProblem = some n → n ≤ s.lexer.first.offset)
    (quiet : s.Quiet (advance s).2) : (advance s).2.Alert text := by
  obtain ⟨next, behind⟩ := sits.scan
  refine ⟨lexer_advance s ▸ next, fun n last => ?_⟩
  rw [(Notes.moving.advance s).last quiet.problems] at last
  rw [lexer_advance]
  calc n ≤ s.lexer.first.offset := noted n last
    _ < s.lexer.here.offset := (sits.more notEnd).offset_lt
    _ ≤ s.lexer.scan.first.offset := behind.offset_le

/-- From the first parenthesis of parameters raw tokens can be walked over to the last one. -/
theorem walk_parameterList (hsub : SkipsPhrases text sub) (sits : s.lexer.Sits text)
    (noted : ∀ n, s.lastProblem = some n → n ≤ s.lexer.first.offset)
    (group : s.lexer.kind = .mark .openParen) (quiet : s.Quiet (parameterList sub s).2) :
    ∃ last : Lexer, Walk s.lexer.scan [.paren] last [.paren] ∧ last.kind = .mark .closeParen ∧
      (parameterList sub s).2.lexer = last.scan := by
  have loop : Skips text [] (repeating (parameterStep sub) ([], false)) closed :=
    .repeating (skips_parameterStep hsub) _
  let s₁ := (advance s).2
  let s₂ := (repeating (parameterStep sub) ([], false) s₁).2
  have whole : (parameterList sub s).2 = (expectMark .closeParen s₂).2 := by
    have opening : expectMark .openParen s = ((), s₁) := run_expect_there group
    rw [parameterList, run_bind (run_tokenStart s), run_bind opening]
    rfl
  rw [whole] at quiet ⊢
  obtain ⟨before, last⟩ :=
    quiet.split ((Notes.moving.advance s).trans (loop.notes s₁)) (Notes.moving.expect _ s₂)
  obtain ⟨first, middle⟩ := before.split (Notes.moving.advance s) (loop.notes s₁)
  have alert : s₁.Alert text :=
    alert_advance sits (fun ended => TokenKind.noConfusion (group.symm.trans ended)) noted first
  have walk : Walk s₁.lexer [.paren] s₂.lexer [.paren] :=
    loop.walk alert trivial middle rfl (List.cons_ne_nil _ _)
  by_cases closes : s₂.lexer.kind = .mark .closeParen
  · have closing : expectMark .closeParen s₂ = ((), (advance s₂).2) := run_expect_there closes
    rw [closing]
    exact ⟨s₂.lexer, lexer_advance s ▸ walk, closes, lexer_advance s₂⟩
  -- without the last parenthesis a problem would have been noted
  · have there := (loop.alert alert trivial middle).1
    rw [run_expect_missing closes] at last
    exact (problems_reportHere _ there.before last.problems).elim

/-! ### The arrow -/

theorem arrowAhead_of_skipGroup {l : Lexer} (group : s.lexer.kind = .mark .openParen)
    (skipped : skipGroup s = (true, { s with lexer := l })) (arrow : l.kind = .mark .arrow)
    (sameLine : l.flags.precedingLineBreak = false) : arrowAhead s = (some false, s) := by
  have found : groupThenArrow s = (true, { s with lexer := l }) := by
    rw [groupThenArrow, run_bind skipped]
    change (if (l.kind == .mark .arrow) = true then afterLineBreak >>= fun broken => pure !broken
      else pure false : Parser Bool) { s with lexer := l } = _
    rw [if_pos (beq_iff_eq.2 arrow)]
    change (!l.flags.precedingLineBreak, _) = _
    rw [sameLine]
    rfl
  have ahead : lookAhead groupThenArrow s = (true, s) := by
    change ((groupThenArrow s).1, { (groupThenArrow s).2 with lexer := s.lexer }) = _
    rw [found]
  have kind : Parser.kind s = (.mark .openParen, s) := Prod.ext group rfl
  rw [arrowAhead, run_bind kind]
  change (lookAhead groupThenArrow >>= _) s = _
  rw [run_bind ahead]
  rfl

end Parser

open PathGuard.Parser PathGuard.ParserState

/-- Where a group in parentheses is parsed as parameters without a note and an arrow follows on its
line, looking ahead finds the arrow function, if each regular expression among the parameters, read as
raw tokens, leaves open what was open. -/
theorem arrowAhead_of_parameterList {text : List Char} {s : ParserState} {fuel : Nat}
    {new : List Lexer} (comes : Moves (firstState text) s)
    (group : s.lexer.kind = .mark .openParen)
    (quiet : (parameterList (phrase fuel) s).2.problems = s.problems)
    (read : (parameterList (phrase fuel) s).2.readings = new ++ s.readings)
    (balanced : ∀ l ∈ new, l.Balanced)
    (arrow : (parameterList (phrase fuel) s).2.lexer.kind = .mark .arrow)
    (sameLine : (parameterList (phrase fuel) s).2.lexer.flags.precedingLineBreak = false) :
    arrowAhead s = (some false, s) := by
  have fit := fit_firstState text
  have sits := (comes.forward fit.standing).standing.footing.sits
  have ordered := ((regular_firstState text).moves fit.standing comes).ordered
  have noted (n : Nat) (last : s.lastProblem = some n) : n ≤ s.lexer.first.offset := by
    rw [ordered.last, Option.map_eq_some_iff] at last
    obtain ⟨p, newest, rfl⟩ := last
    exact ordered.before p (List.mem_of_head? newest)
  obtain ⟨last, walk, closes, behind⟩ :=
    walk_parameterList (skips_phrase text fuel) sits noted group ⟨quiet, new, read, balanced⟩
  rw [behind] at arrow sameLine
  exact arrowAhead_of_skipGroup group (skipGroup_of_walk sits group walk closes) arrow sameLine

/-- A class in a regular expression closes its bracket. -/
theorem arrowAhead_of_parameterList_class :
    let s := firstState "(a = /[b]/, c = \x60$\x7bd\x7d\x60) => 1".toList
    s.lexer.kind = .mark .openParen ∧ (parameterList (phrase 8) s).2.problems = s.problems ∧
      (∃ new, (parameterList (phrase 8) s).2.readings = new ++ s.readings ∧ ∀ l ∈ new, l.Balanced) ∧
      (parameterList (phrase 8) s).2.lexer.kind = .mark .arrow ∧
      (parameterList (phrase 8) s).2.lexer.flags.precedingLineBreak = false ∧
      arrowAhead s = (some false, s) := by
  intro s
  have group : s.lexer.kind = .mark .openParen := by decide +kernel
  have quiet : (parameterList (phrase 8) s).2.problems = s.problems := by decide +kernel
  have read : (parameterList (phrase 8) s).2.readings =
      (parameterList (phrase 8) s).2.readings.dropLast ++ s.readings := by decide +kernel
  have arrow : (parameterList (phrase 8) s).2.lexer.kind = .mark .arrow := by decide +kernel
  have sameLine : (parameterList (phrase 8) s).2.lexer.flags.precedingLineBreak = false := by
    decide +kernel
  have balanced : ∀ l ∈ (parameterList (phrase 8) s).2.readings.dropLast, l.Balanced := by
    -- a bracket, a name, a bracket and a slash
    have closes : ∀ l ∈ (parameterList (phrase 8) s).2.readings.dropLast,
        l.kind = .literal .regularExpression →
          l.scan.leadsTo 4 [] (Lexer.scan { l with here := (readPiece l.first).stop }) = true := by
      decide +kernel
    exact fun l member literal => Lexer.balanced_of_leadsTo 4 (closes l member literal) literal
  exact ⟨group, quiet, ⟨_, read, balanced⟩, arrow, sameLine,
    arrowAhead_of_parameterList .refl group quiet read balanced arrow sameLine⟩

-- Otherwise a parenthesis in a regular expression may be taken for the end of the group.
example :
    let s := firstState "(a = /)/) => 1".toList
    let s' := (parameterList (phrase 8) s).2
    s'.problems = s.problems ∧ s'.lexer.kind = .mark .arrow ∧ (arrowAhead s).1 = none := by
  decide +kernel

end PathGuard
