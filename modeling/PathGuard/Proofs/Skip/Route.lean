import PathGuard.Proofs.Grammar.Operand
import PathGuard.Proofs.Skip.Walk
import PathGuard.Proofs.Token.Route
/-!
# Looking for an arrow at a route

A route in parentheses may look like the parameters of an arrow function. Skipping the group comes to
its last parenthesis, and what stands behind that one tells that there is no arrow function.
-/

namespace PathGuard

open PathGuard.Parser (Opening)

/-! ### What words open and close -/

/-- Whether passing words changes what is open from one record to another one, and something is open
behind each of them. -/
inductive Passes : List Word → List Opening → List Opening → Prop where
  | nil {opened : List Opening} : Passes [] opened opened
  | cons {w : Word} {ws : List Word} {opened opened₁ opened' : List Opening}
      (turns : w.kind.Turns opened opened₁) (within : opened₁ ≠ [])
      (later : Passes ws opened₁ opened') : Passes (w :: ws) opened opened'

namespace Passes

variable {ws ws' : List Word} {opened opened' opened'' : List Opening}

theorem append (h : Passes ws opened opened') (h' : Passes ws' opened' opened'') :
    Passes (ws ++ ws') opened opened'' := by
  induction h with
  | nil => exact h'
  | cons turns within _ ih => exact .cons turns within (ih h')

end Passes

theorem AsciiName.isLoose_kind (n : AsciiName) : n.kind.isLoose = true := by
  unfold AsciiName.kind
  split
  · rfl
  · rfl

variable {opened : List Opening}

theorem passes_key (within : opened ≠ []) (s : PlainText) :
    Passes [markWord .openBracket false, s.word false, markWord .closeBracket false]
      opened opened :=
  .cons (.opens rfl) (List.cons_ne_nil _ _)
    (.cons (.loose rfl) (List.cons_ne_nil _ _) (.cons (.closes rfl) within .nil))

theorem passes_meta (within : opened ≠ []) (keyword n : AsciiName) :
    Passes [keyword.word false, markWord .dot false, n.word false] opened opened :=
  .cons (.loose keyword.isLoose_kind) within
    (.cons (.loose rfl) within (.cons (.loose n.isLoose_kind) within .nil))

theorem Link.passes (l : Link) (within : opened ≠ []) : Passes l.words opened opened := by
  cases l with
  | name isOptional n =>
    cases isOptional
    · exact .cons (.loose rfl) within (.cons (.loose n.isLoose_kind) within .nil)
    · exact .cons (.loose rfl) within (.cons (.loose n.isLoose_kind) within .nil)
  | key isOptional s =>
    cases isOptional
    · exact passes_key within s
    · exact .cons (.loose rfl) within (passes_key within s)

/-- All that a route opens it closes. -/
theorem Route.passes (r : Route) (within : opened ≠ []) : Passes r.words opened opened := by
  induction r generalizing opened with
  | name n free => exact .cons (.loose n.isLoose_kind) within .nil
  | importMeta n => exact passes_meta within AsciiName.importWord n
  | newMeta n => exact passes_meta within AsciiName.newWord n
  | link r l ih => exact (ih within).append (l.passes within)
  | parenthesized r ih =>
    have inner : Passes r.words (.paren :: opened) (.paren :: opened) := ih (List.cons_ne_nil _ _)
    exact .cons (.opens rfl) (List.cons_ne_nil _ _) (inner.append (.cons (.closes rfl) within .nil))

/-! ### Skipping words -/

namespace Parser

variable {offset depth : Nat} {ws us : List Word} {c : Context} {s : ParserState}

theorem skipGroupWithin_words {opened opened' : List Opening} (passes : Passes us opened opened')
    {bound : List Char} (enough : us.length ≤ bound.length) {l : Lexer}
    (stands : l.Stands offset (us ++ ws)) :
    ∃ bound' l' offset', bound'.length + us.length = bound.length ∧ l'.Stands offset' ws ∧
      skipGroupWithin bound opened { s with lexer := l } =
        skipGroupWithin bound' opened' { s with lexer := l' } := by
  induction passes generalizing bound offset l with
  | nil => exact ⟨bound, l, offset, rfl, stands, rfl⟩
  | @cons w us opened opened₁ opened' turns within later ih =>
    cases bound with
    | nil => cases enough
    | cons b bound =>
      obtain ⟨⟨kind, -⟩, -, next⟩ := stands
      rw [← kind] at turns
      obtain ⟨bound', l', offset', left, there, same⟩ := ih (Nat.le_of_succ_le_succ enough) next
      refine ⟨bound', l', offset', ?_, there, ?_⟩
      · rw [List.length_cons, List.length_cons, ← left, Nat.add_assoc]
      · rw [skipGroupWithin_turn turns fun _ => within]
        exact same

theorem At.skipGroup (at_ : At offset (markWord .openParen false ::
      (us ++ markWord .closeParen false :: ws)) c depth s)
    (passes : Passes us [.paren] [.paren]) :
    ∃ l offset', l.Stands offset' ws ∧ Parser.skipGroup s = (true, { s with lexer := l }) := by
  obtain ⟨left, textLeft, enough⟩ := at_.textLeft
  rw [List.length_cons, List.length_append, List.length_cons] at enough
  have opening : Passes (markWord .openParen false :: us) [] [.paren] :=
    .cons (.opens rfl) (List.cons_ne_nil _ _) passes
  have room : (markWord .openParen false :: us).length ≤ left.length := by
    rw [List.length_cons]
    omega
  have whole : s.lexer.Stands offset
      ((markWord .openParen false :: us) ++ markWord .closeParen false :: ws) := at_.stands
  obtain ⟨bound, l, offset', more, stands, same⟩ := skipGroupWithin_words (s := s) opening room whole
  rw [List.length_cons] at more
  obtain ⟨⟨kind, -⟩, -, behind⟩ := stands
  refine ⟨l.scan, _, behind, ?_⟩
  rw [Parser.skipGroup, run_bind textLeft]
  refine same.trans ?_
  cases bound with
  | nil =>
    rw [List.length_nil] at more
    omega
  | cons b bound => exact skipGroupWithin_last kind b bound

theorem At.noArrowAhead_group (at_ : At offset (markWord .openParen false ::
      (us ++ markWord .closeParen false :: ws)) c depth s)
    (passes : Passes us [.paren] [.paren]) (other : headKind ws ≠ .mark .arrow) :
    arrowAhead s = (none, s) := by
  obtain ⟨l, offset', stands, skipped⟩ := at_.skipGroup passes
  have notHere : (l.kind == .mark .arrow) = false := by
    rw [(At.stands_kind stands).1]
    exact beq_false_of_ne other
  have found : groupThenArrow s = (false, { s with lexer := l }) := by
    rw [groupThenArrow, run_bind skipped]
    change (if (l.kind == .mark .arrow) = true then Parser.afterLineBreak >>= fun broken => pure !broken
      else pure false : Parser Bool) { s with lexer := l } = _
    rw [notHere]
    rfl
  have ahead : lookAhead groupThenArrow s = (false, s) := by
    change ((groupThenArrow s).1, { (groupThenArrow s).2 with lexer := s.lexer }) = _
    rw [found]
  rw [arrowAhead, run_bind at_.kind]
  change (lookAhead groupThenArrow >>= _) s = _
  rw [run_bind ahead]
  rfl

theorem At.noArrowAhead_meta {w : Word} (at_ : At offset (w :: ws) c depth s)
    (kind : w.kind = .word .importWord ∨ w.kind = .word .newWord) : arrowAhead s = (none, s) := by
  have noName : isNameIn c (headKind (w :: ws)) = false := by
    rw [headKind]
    rcases kind with kind | kind
    · rw [kind]
      rfl
    · rw [kind]
      rfl
  have named : (Parser.atIdentifier >>= fun here =>
      if here = true then lookAhead tokenThenArrow >>= fun arrow =>
        pure (if arrow = true then some false else none) else pure none : Parser (Option Bool)) s =
      (none, s) := by
    rw [run_bind at_.atIdentifier, noName]
    rfl
  rw [arrowAhead, run_bind at_.kind, headKind]
  rcases kind with kind | kind
  · rw [kind]
    exact named
  · rw [kind]
    exact named

theorem headKind_link (l : Link) (ws : List Word) :
    ∃ m ∈ [Punctuator.dot, .questionDot, .openBracket], headKind (l.words ++ ws) = .mark m := by
  cases l with
  | name isOptional n =>
    cases isOptional with
    | false => exact ⟨.dot, by decide, rfl⟩
    | true => exact ⟨.questionDot, by decide, rfl⟩
  | key isOptional s =>
    cases isOptional with
    | false => exact ⟨.openBracket, by decide, rfl⟩
    | true => exact ⟨.questionDot, by decide, rfl⟩

theorem headKind_link_ne {m : Punctuator} (other : m ∉ [Punctuator.dot, .questionDot, .openBracket])
    (l : Link) (ws : List Word) : headKind (l.words ++ ws) ≠ .mark m := by
  obtain ⟨first, begins, kind⟩ := headKind_link l ws
  intro same
  have eq : first = m := TokenKind.mark.inj (kind.symm.trans same)
  exact other (eq ▸ begins)

/-- No arrow function begins at a route that no arrow follows. -/
theorem At.noArrowAhead_route (r : Route) (at_ : At offset (r.words ++ ws) c depth s)
    (other : headKind ws ≠ .mark .arrow) : arrowAhead s = (none, s) := by
  induction r generalizing ws with
  | name n free =>
    have plain : isPlainStart (n.word false).kind = true := by
      change isPlainStart n.kind = true
      rw [free.kind_eq]
      rfl
    exact At.noArrowAhead at_ plain other
  | importMeta n => exact At.noArrowAhead_meta at_ (.inl AsciiName.importWord_kind)
  | newMeta n => exact At.noArrowAhead_meta at_ (.inr AsciiName.newWord_kind)
  | link r l ih =>
    rw [Route.words, List.append_assoc] at at_
    exact ih at_ (headKind_link_ne (by decide) l ws)
  | parenthesized r ih =>
    rw [Route.words, List.cons_append, List.append_assoc] at at_
    exact at_.noArrowAhead_group (r.passes (List.cons_ne_nil _ _)) other

end Parser

end PathGuard
