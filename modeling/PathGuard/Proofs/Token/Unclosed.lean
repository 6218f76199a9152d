import PathGuard.Proofs.Token.Forward
/-!
# Tokens that miss their end

Where the end of something is missing, the token that is read says so. An unclosed comment takes the
rest of the text, so what is read behind it is the end; besides it, only strings, templates and names
with an unclosed escape can miss their end.
-/

namespace PathGuard

namespace TokenKind

def isQuoted : TokenKind → Bool
  | .literal .string | .literal .template | .literal .templateHead => true
  | _ => false

def isName : TokenKind → Bool
  | .identifier | .word _ | .privateIdentifier => true
  | _ => false

theorem plain_of_isTrivia {k : TokenKind} (trivia : k.isTrivia = true) :
    k.isQuoted = false ∧ k.isName = false := by
  cases k <;> first | exact ⟨rfl, rfl⟩ | cases trivia

end TokenKind

theorem blockCommentEnd_open (broken : Bool) (offset : Nat) (rest : List Char)
    (missing : (blockCommentEnd broken offset rest).2.2 = true) :
    (blockCommentEnd broken offset rest).1.rest = [] := by
  induction broken, offset, rest using blockCommentEnd.induct with
  | case1 broken offset => rfl
  | case2 broken offset rest => cases missing
  | case3 broken offset ch rest other ih =>
    rw [blockCommentEnd] at missing ⊢
    · exact ih missing
    · exact other
    · exact other

theorem readIdentifier_isName (c : Cursor) : (readIdentifier c).kind.isName = true := by
  obtain name | ⟨w, word⟩ := readIdentifier_kind c
  · rw [name]
    rfl
  · rw [word]
    rfl

theorem readTemplate_isQuoted (c : Cursor) : (readTemplate true c).kind.isQuoted = true := by
  unfold readTemplate
  cases opens : (readTemplateContent c.rest c).opens <;> simp [opens, TokenKind.isQuoted]

/-- What may miss its end: a comment, with nothing behind it, and strings, templates and names. -/
theorem readPiece_unclosed {c : Cursor} (missing : (readPiece c).flags.unterminated = true) :
    ((readPiece c).kind.isTrivia = true ∧ (readPiece c).stop.rest = []) ∨
      (readPiece c).kind.isQuoted = true ∨ (readPiece c).kind.isName = true := by
  cases begun c with
  | shebang _ read | endOfFile _ read | newLine _ _ read | whitespace _ _ read
  | lineComment _ read | number _ _ read =>
    rw [read] at missing
    cases missing
  | blockComment _ read =>
    rw [read] at missing ⊢
    exact .inl ⟨rfl, blockCommentEnd_open _ _ _ missing⟩
  | string _ read =>
    rw [read]
    exact .inr (.inl rfl)
  | template _ read =>
    rw [read]
    exact .inr (.inl (readTemplate_isQuoted _))
  | privateName _ read =>
    rw [read, readPrivateIdentifier] at missing ⊢
    split at missing
    · next named =>
      rw [if_pos named]
      exact .inr (.inr rfl)
    · cases missing
  | name _ _ read =>
    rw [read]
    exact .inr (.inr (readIdentifier_isName _))
  | mark _ read =>
    rw [read, readMark] at missing
    split at missing <;> cases missing

namespace Lexer

theorem skipPieces_nil (bound : List Char) {c : Cursor} (ends : c.rest = []) (flags : TokenFlags) :
    skipPieces bound c flags = (c, .plain .endOfFile c, flags) := by
  cases bound with
  | nil => rw [skipPieces, readPiece_nil ends]
  | cons _ bound =>
    rw [skipPieces, readPiece_nil ends]
    rfl

theorem skipPieces_unclosed {bound : List Char} {c : Cursor} (enough : c.rest.length ≤ bound.length)
    {flags : TokenFlags} (closed : flags.unterminated = false)
    (missing : ((skipPieces bound c flags).2.2.union
      (skipPieces bound c flags).2.1.flags).unterminated = true) :
    (skipPieces bound c flags).2.1.kind = .endOfFile ∨
      (skipPieces bound c flags).2.1.kind.isQuoted = true ∨
      (skipPieces bound c flags).2.1.kind.isName = true := by
  induction bound generalizing c flags with
  | nil =>
    have ends : c.rest = [] := List.length_eq_zero_iff.1 (Nat.le_zero.1 enough)
    exact .inl (by rw [skipPieces_nil [] ends]; rfl)
  | cons _ bound ih =>
    by_cases ends : c.rest = []
    · exact .inl (by rw [skipPieces_nil _ ends]; rfl)
    have shorter := (passes_readPiece ends).length_lt
    unfold skipPieces at missing ⊢
    dsimp only at missing ⊢
    split at missing
    · next trivia =>
      rw [if_pos trivia]
      cases open_ : (readPiece c).flags.unterminated with
      | true =>
        -- of trivia only a comment can miss its end, and then it takes the rest of the text
        rcases readPiece_unclosed open_ with ⟨-, last⟩ | quoted | name
        · exact .inl (by rw [skipPieces_nil _ last]; rfl)
        · rw [(TokenKind.plain_of_isTrivia trivia).1] at quoted
          cases quoted
        · rw [(TokenKind.plain_of_isTrivia trivia).2] at name
          cases name
      | false =>
        rw [List.length_cons] at enough
        refine ih (by omega) ?_ missing
        simp [TokenFlags.union, closed, open_]
    · next noTrivia =>
      rw [if_neg noTrivia]
      have open_ : (readPiece c).flags.unterminated = true := by
        simpa [TokenFlags.union, closed] using missing
      exact .inr ((readPiece_unclosed open_).resolve_left fun trivia => noTrivia trivia.1)

/-- A token that misses its end is a string, a template, a name, or the end behind a comment that is
not closed. -/
theorem scan_unclosed {l : Lexer} (skips : l.skipTrivia = true)
    (missing : l.scan.flags.unterminated = true) :
    l.scan.kind = .endOfFile ∨ l.scan.kind.isQuoted = true ∨ l.scan.kind.isName = true := by
  unfold scan at missing ⊢
  rw [skips, if_pos rfl] at missing ⊢
  exact skipPieces_unclosed (Nat.le_refl _) rfl missing

end Lexer

end PathGuard
