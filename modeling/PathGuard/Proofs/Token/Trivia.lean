import PathGuard.Proofs.Token.Tiling
import PathGuard.Proofs.Token.Unclosed
/-!
# Passing over trivia

A lexer that passes over trivia comes to the same tokens as one that keeps them, without the trivia.
A token behind trivia takes over their flags, and with them begins where the token before them
stops. One move of the first lexer is as many moves of the second one as pieces are passed over, and
one more.
-/

namespace PathGuard

def Token.behind (t : Token) (fullStart : Nat) (gap : List Token) : Token :=
  { t with fullStart := fullStart, flags := (gap.map Token.flags).foldr TokenFlags.union t.flags }

/-- Whether `kept` are the tokens of `all` that are no trivia, each with the trivia right before it.
The first one begins at `fullStart`, and each other one where the one kept before it stops. -/
inductive Condenses : (fullStart : Nat) → (all kept : List Token) → Prop where
  | nil (fullStart : Nat) : Condenses fullStart [] []
  | keep {fullStart : Nat} {gap all kept : List Token} {t : Token}
      (trivia : ∀ u ∈ gap, u.kind.isTrivia = true) (plain : t.kind.isTrivia = false)
      (rest : Condenses t.stop all kept) :
      Condenses fullStart (gap ++ t :: all) (t.behind fullStart gap :: kept)

namespace Condenses

variable {start : Nat} {all kept : List Token} {t : Token}

theorem cons_plain (plain : t.kind.isTrivia = false) (here : t.fullStart = start)
    (rest : Condenses t.stop all kept) : Condenses start (t :: all) (t :: kept) := by
  have same : t.behind start [] = t := by rw [← here]; rfl
  have nothing : ∀ u ∈ ([] : List Token), u.kind.isTrivia = true := List.forall_mem_nil _
  have first : Condenses start ([] ++ t :: all) (t.behind start [] :: kept) :=
    .keep nothing plain rest
  rwa [same, List.nil_append] at first

theorem kept_nil (h : Condenses start [] kept) : kept = [] := by
  generalize none_ : ([] : List Token) = all at h
  cases h with
  | nil => rfl
  | keep => simp at none_

end Condenses

namespace Lexer

/-! ### Several pieces in one move -/

theorem skipPieces_congr {bound bound' : List Char} {c : Cursor}
    (enough : c.rest.length ≤ bound.length) (enough' : c.rest.length ≤ bound'.length)
    (flags : TokenFlags) : skipPieces bound c flags = skipPieces bound' c flags := by
  induction bound generalizing bound' c flags with
  | nil =>
    have ends : c.rest = [] := List.length_eq_zero_iff.1 (Nat.le_zero.1 enough)
    rw [skipPieces_nil _ ends, skipPieces_nil _ ends]
  | cons _ bound ih =>
    by_cases ends : c.rest = []
    · rw [skipPieces_nil _ ends, skipPieces_nil _ ends]
    have shorter := (passes_readPiece ends).length_lt
    cases bound' with
    | nil => exact absurd (List.length_eq_zero_iff.1 (Nat.le_zero.1 enough')) ends
    | cons _ bound' =>
      rw [List.length_cons] at enough enough'
      have rest (flags : TokenFlags) : skipPieces bound (readPiece c).stop flags =
          skipPieces bound' (readPiece c).stop flags := ih (by omega) (by omega) flags
      rw [skipPieces, skipPieces, rest]

theorem skipPieces_flags (bound : List Char) (c : Cursor) (flags : TokenFlags) :
    skipPieces bound c flags = ((skipPieces bound c .none).1, (skipPieces bound c .none).2.1,
      flags.union (skipPieces bound c .none).2.2) := by
  induction bound generalizing c flags with
  | nil => rw [skipPieces, skipPieces, TokenFlags.union_none]
  | cons _ bound ih =>
    rw [skipPieces, skipPieces]
    split
    · rw [ih _ (flags.union _), ih _ (TokenFlags.none.union _), TokenFlags.none_union,
        TokenFlags.union_assoc]
    · rw [TokenFlags.union_none]

theorem skipPieces_plain {c : Cursor} (plain : (readPiece c).kind.isTrivia = false) :
    skipPieces c.rest c .none = (c, readPiece c, .none) := by
  cases c.rest with
  | nil => rfl
  | cons ch rest =>
    rw [skipPieces, plain, if_neg Bool.false_ne_true]

theorem skipPieces_trivia {c : Cursor} (trivia : (readPiece c).kind.isTrivia = true) :
    skipPieces c.rest c .none =
      skipPieces (readPiece c).stop.rest (readPiece c).stop (readPiece c).flags := by
  cases here : c.rest with
  | nil =>
    rw [readPiece_nil here] at trivia
    cases trivia
  | cons ch rest =>
    have more : c.rest ≠ [] := by rw [here]; exact List.cons_ne_nil _ _
    have shorter := (passes_readPiece more).length_lt
    rw [here, List.length_cons] at shorter
    rw [skipPieces, trivia, if_pos rfl, TokenFlags.none_union]
    exact skipPieces_congr (by omega) (Nat.le_refl _) _

variable {l m : Lexer}

theorem scan_eq (plain : (readPiece l.here).kind.isTrivia = false) :
    l.scan =
      { l with
        fullStart := l.here.offset
        first := l.here
        here := (readPiece l.here).stop
        kind := (readPiece l.here).kind
        value := (readPiece l.here).value
        flags := (readPiece l.here).flags } := by
  unfold scan
  cases l.skipTrivia with
  | false =>
    rw [if_neg Bool.false_ne_true]
    dsimp only
    rw [TokenFlags.none_union]
  | true =>
    rw [if_pos rfl, skipPieces_plain plain]
    dsimp only
    rw [TokenFlags.none_union]

theorem scan_piece (plain : (readPiece l.here).kind.isTrivia = false) :
    l.scan.token = pieceToken l.here ∧ l.scan.here = (readPiece l.here).stop := by
  rw [scan_eq plain]
  exact ⟨rfl, rfl⟩

theorem scan_trivia (skips : l.skipTrivia = true) (trivia : (readPiece l.here).kind.isTrivia = true)
    (text : m.text = l.text) (skips' : m.skipTrivia = true)
    (here : m.here = (readPiece l.here).stop) :
    l.scan = { m.scan with
      fullStart := l.here.offset, flags := (readPiece l.here).flags.union m.scan.flags } := by
  unfold scan
  rw [skips, skips', if_pos rfl, if_pos rfl, here, skipPieces_trivia trivia, skipPieces_flags, text]
  simp only [TokenFlags.union_assoc]

/-! ### Both lexers -/

theorem Yields.of_scan_eq {ts : List Token} (h : m.Yields ts) (same : l.scan = m.scan) :
    l.Yields ts := by
  cases h with
  | last ended =>
    rw [← same] at ended ⊢
    exact .last ended
  | more goesOn later =>
    rw [← same] at goesOn later ⊢
    exact .more goesOn later

theorem Yields.of_scan_trivia {fullStart : Nat} {flags : TokenFlags} {t : Token} {ts : List Token}
    (h : m.Yields (t :: ts))
    (same : l.scan = { m.scan with
      fullStart := fullStart, flags := flags.union m.scan.flags }) :
    l.Yields ({ t with fullStart := fullStart, flags := flags.union t.flags } :: ts) := by
  have kind : l.scan.kind = m.scan.kind := by rw [same]
  have token : l.scan.token = { m.scan.token with
      fullStart := fullStart, flags := flags.union m.scan.token.flags } := by
    rw [same]
    rfl
  cases h with
  | last ended =>
    rw [← token]
    exact .last (kind.trans ended)
  | more goesOn later =>
    rw [← token]
    have again : l.scan.scan = m.scan.scan :=
      scan_congr (by rw [same]) (by rw [same]) (by rw [same])
    exact .more (kind ▸ goesOn) (later.of_scan_eq again)

end Lexer

open Lexer

theorem Pieces.condenses {c : Cursor} {ts : List Token} (h : Pieces c ts) {l : Lexer}
    (skips : l.skipTrivia = true) (here : l.here = c) :
    ∃ kept, l.Yields kept ∧ Condenses c.offset ts kept := by
  induction h generalizing l with
  | @last c ends =>
    have ended : (pieceToken c).kind = .endOfFile := by rw [pieceToken, readPiece_nil ends]; rfl
    have plain : (pieceToken c).kind.isTrivia = false := by rw [ended]; rfl
    obtain ⟨token, -⟩ := scan_piece (here ▸ plain)
    rw [here] at token
    refine ⟨[l.scan.token], .last ((congrArg Token.kind token).trans ended), ?_⟩
    rw [token]
    exact .cons_plain plain rfl (.nil _)
  | @more c ts more later ih =>
    subst here
    cases trivia : (readPiece l.here).kind.isTrivia with
    | false =>
      obtain ⟨token, stop⟩ := scan_piece trivia
      obtain ⟨kept, yields, condenses⟩ := ih (l := l.scan) skips stop
      have goesOn : l.scan.kind ≠ .endOfFile := by
        rw [show l.scan.kind = (pieceToken l.here).kind from congrArg Token.kind token]
        exact readPiece_goesOn more
      refine ⟨l.scan.token :: kept, .more goesOn yields, ?_⟩
      rw [token]
      exact .cons_plain trivia rfl condenses
    | true =>
      let behind : Lexer := { l with here := (readPiece l.here).stop }
      obtain ⟨kept, yields, condenses⟩ := ih (l := behind) skips rfl
      -- from before the trivia the lexer comes to the same token as from behind them
      have moved := scan_trivia skips trivia (m := behind) rfl skips rfl
      cases condenses with
      | nil => cases later
      | @keep _ gap all kept t trivia' plain rest =>
        have gap' : ∀ u ∈ pieceToken l.here :: gap, u.kind.isTrivia = true :=
          List.forall_mem_cons.2 ⟨trivia, trivia'⟩
        exact ⟨_, yields.of_scan_trivia moved, .keep gap' plain rest⟩

/-! ### Where the tokens lie that are kept -/

/-- Whether a token is kept of the pieces from `c` on: it is the piece at `q` with the trivia before
it, which begin at `p`. -/
structure KeptAt (c : Cursor) (all : List Token) (p : Cursor) (gap : List Token) (q : Cursor)
    (t : Token) : Prop where
  around : ∃ before behind, all = before ++ (gap ++ behind) ∧ Paves c before p ∧ Pieces q behind
  paves : Paves p gap q
  trivia : ∀ u ∈ gap, u.kind.isTrivia = true
  plain : (readPiece q).kind.isTrivia = false
  token : t = (pieceToken q).behind p.offset gap

theorem Condenses.keptAt {start : Nat} {all kept : List Token} (h : Condenses start all kept)
    {c : Cursor} (pieces : Pieces c all) (here : c.offset = start) {t : Token} (member : t ∈ kept) :
    ∃ p gap q, KeptAt c all p gap q t := by
  induction h generalizing c with
  | nil => cases member
  | @keep _ gap all kept u trivia plain rest ih =>
    obtain ⟨q, paves, behind⟩ := pieces.split (List.cons_ne_nil u all)
    obtain rfl : u = pieceToken q := Option.some.inj behind.head
    rcases List.mem_cons.1 member with rfl | later
    · exact ⟨c, gap, q, ⟨[], _, rfl, .nil c, behind⟩, paves, trivia, plain, by rw [here]⟩
    · cases behind with
      | last =>
        rw [rest.kept_nil] at later
        cases later
      | more more behind =>
        obtain ⟨p, gap', q', at_⟩ := ih behind rfl later
        obtain ⟨before, after, same, first, last⟩ := at_.around
        refine ⟨p, gap', q', ⟨gap ++ pieceToken q :: before, after, ?_, ?_, last⟩, at_.paves,
          at_.trivia, at_.plain, at_.token⟩
        · rw [same]
          simp
        · exact paves.append (.cons more first)

theorem KeptAt.mem_gap_iff {c p q : Cursor} {all gap : List Token} {t u : Token}
    (h : KeptAt c all p gap q t) :
    u ∈ gap ↔ u ∈ all ∧ u.kind.isTrivia = true ∧ t.fullStart ≤ u.start ∧ u.stop ≤ t.start := by
  obtain ⟨before, behind, same, first, last⟩ := h.around
  rw [h.token, same]
  constructor
  · intro member
    obtain ⟨r, made, start, -, stop⟩ := h.paves.mem member
    refine ⟨by simp [member], h.trivia u member, ?_, ?_⟩
    · rw [made]
      exact start.offset_le
    · rw [made]
      exact stop.offset_le
  · rintro ⟨member, trivia, start, stop⟩
    change p.offset ≤ u.start at start
    change u.stop ≤ q.offset at stop
    rcases List.mem_append.1 member with early | member
    · obtain ⟨r, rfl, -, passes, low⟩ := first.mem early
      have empty := passes.offset_lt
      have bound := low.offset_le
      change p.offset ≤ r.offset at start
      omega
    rcases List.mem_append.1 member with there | late
    · exact there
    · obtain ⟨r, rfl, high⟩ := last.mem late
      have bound := high.offset_le
      change (readPiece r).stop.offset ≤ q.offset at stop
      by_cases ends : r.rest = []
      -- the end of the text takes no characters, but is no trivia
      · rw [pieceToken, readPiece_nil ends] at trivia
        cases trivia
      · have empty := (passes_readPiece ends).offset_lt
        omega

/-! ### The whole text -/

theorem condensed_tokensOf (text : String) :
    Condenses 0 (tokensOf text false) (tokensOf text true) := by
  obtain ⟨kept, yields, condenses⟩ :=
    (pieces_tokensOf text).condenses (l := .start text.toList true) rfl rfl
  rwa [yields.unique (yields_tokensOf text true)] at condenses

/-- Whatever the text, the tokens without trivia are the tokens with trivia, the trivia left out:
each begins, with the trivia before it, where the one before them stops, and has their flags and its
own. -/
theorem tokensOf_condenses (text : String) :
    (Lexer.start text.toList false).Yields (tokensOf text false) ∧
      (Lexer.start text.toList true).Yields (tokensOf text true) ∧
        Condenses 0 (tokensOf text false) (tokensOf text true) :=
  ⟨yields_tokensOf text false, yields_tokensOf text true, condensed_tokensOf text⟩

end PathGuard
