import PathGuard.Proofs.Grammar.Reading
/-!
# Operands

An operand that begins with a name or a literal ends before an operator. Before a semicolon, a
closing bracket or the end of the text it is the whole expression: no operator, arrow or comma comes
into play.
-/

namespace PathGuard.Parser

def isStop : TokenKind → Bool
  | .mark .semicolon | .mark .closeBracket | .mark .closeParen | .mark .closeBrace | .endOfFile => true
  | _ => false

def isOperator (k : TokenKind) : Bool := precedence (Context.ofFunction false false) k != 0

/-- What no operand goes on behind. -/
def endsOperand (k : TokenKind) : Bool := isStop k || isOperator k

def isPlainStart : TokenKind → Bool
  | .identifier | .literal _ => true
  | _ => false

variable {sub : PhraseParser} {offset offset' depth : Nat} {w w' : Word} {ws ws' : List Word}
  {c : Context} {Q : Nat → Tree → Prop} {e e' : Ending}

theorem isStop_cases {k : TokenKind} (stop : isStop k = true) :
    k = .mark .semicolon ∨ k = .mark .closeBracket ∨ k = .mark .closeParen ∨
      k = .mark .closeBrace ∨ k = .endOfFile := by
  unfold isStop at stop
  split at stop
  · exact .inl rfl
  · exact .inr (.inl rfl)
  · exact .inr (.inr (.inl rfl))
  · exact .inr (.inr (.inr (.inl rfl)))
  · exact .inr (.inr (.inr (.inr rfl)))
  · cases stop

theorem endsOperand_of_stop {k : TokenKind} (stop : isStop k = true) : endsOperand k = true := by
  rw [endsOperand, stop, Bool.true_or]

theorem isPlainStart_cases {k : TokenKind} (start : isPlainStart k = true) :
    k = .identifier ∨ ∃ l, k = .literal l := by
  unfold isPlainStart at start
  split at start
  · exact .inl rfl
  · exact .inr ⟨_, rfl⟩
  · cases start

/-! ### Context, depth and repetition -/

theorem Reads.within {act : Parser Child} {change : Context → Context}
    (h : Reads act offset ws (change c) depth offset' ws' Q e e') :
    Reads (within change act) offset ws c depth offset' ws' Q e e' := by
  intro s at_
  have inside : At offset ws (change c) depth { s with context := change s.context } e :=
    ⟨at_.stands, at_.previous, at_.problems, congrArg change at_.context, at_.depth, at_.pools⟩
  obtain ⟨i, s', run, after, grows, result⟩ := h _ inside
  refine ⟨i, { s' with context := c }, ?_,
    ⟨after.stands, after.previous, after.problems, rfl, after.depth, after.pools⟩, grows, result⟩
  rw [Parser.within, run_bind at_.context_eq, run_bind (run_modify _ s), run_bind run]
  rfl

theorem Reads.nested {act : Parser Child} (room : depth < maxDepth)
    (h : Reads act offset ws c (depth + 1) offset' ws' Q e e') :
    Reads (nested act) offset ws c depth offset' ws' Q e e' := by
  intro s at_
  have inside : At offset ws c (depth + 1) s.deeper e :=
    ⟨at_.stands, at_.previous, at_.problems, at_.context, congrArg (· + 1) at_.depth, at_.pools⟩
  obtain ⟨i, s', run, after, grows, result⟩ := h _ inside
  refine ⟨i, { s' with depth := s'.depth - 1 }, ?_,
    ⟨after.stands, after.previous, after.problems, after.context, ?_, after.pools⟩, grows, result⟩
  · have shallow : ¬maxDepth ≤ s.depth := by
      rw [at_.depth]
      omega
    change (if maxDepth ≤ s.depth then _ else _ : Parser Child) s = _
    rw [if_neg shallow, run_bind (run_modify _ s), run_bind run]
    rfl
  · rw [after.depth]
    rfl

theorem run_repeatWithin_done {σ : Type} {step : σ → Parser (ForInStep σ)} {acc acc' : σ}
    {s s' : ParserState} (h : step acc s = (.done acc', s')) (bound : List Char) :
    repeatWithin step bound acc s = (acc', s') := by
  cases bound with
  | nil =>
    rw [repeatWithin, run_bind h]
    rfl
  | cons b bound =>
    rw [repeatWithin, run_bind h]
    rfl

/-! ### Around an operand -/

theorem reads_operatorBehind (h : Reads (leftHandSide sub) offset (w :: ws) c depth offset' ws' Q e e')
    (ends : endsOperand (headKind ws' e') = true) :
    Reads (operatorBehind sub) offset (w :: ws) c depth offset' ws' Q e e' := by
  intro s at_
  obtain ⟨i, s', run, after, grows, result⟩ := h s at_
  refine ⟨i, s', ?_, after, grows, result⟩
  have increment : (headKind ws' e' == .mark .plusPlus) = false :=
    beq_false_of_ne fun here => by rw [here] at ends; cases ends
  have decrement : (headKind ws' e' == .mark .minusMinus) = false :=
    beq_false_of_ne fun here => by rw [here] at ends; cases ends
  rw [operatorBehind, run_bind at_.tokenStart, run_bind run, run_bind after.kind,
    run_bind after.afterLineBreak, increment, decrement]
  rfl

theorem reads_unary (room : depth < maxDepth) (unsigned : operatorBefore? c w.kind = none)
    (ends : endsOperand (headKind ws' e') = true)
    (h : Reads (leftHandSide sub) offset (w :: ws) c (depth + 1) offset' ws' Q e e') :
    Reads (unary sub) offset (w :: ws) c depth offset' ws' Q e e' := by
  refine Reads.nested room fun s at_ => ?_
  have read := reads_operatorBehind h ends s at_
  rw [unaryHere, run_bind at_.tokenStart, run_bind at_.kind, run_bind at_.context_eq, headKind,
    unsigned]
  exact read

theorem reads_binary (room : depth < maxDepth) (unsigned : operatorBefore? c w.kind = none)
    (stop : isStop (headKind ws' e') = true)
    (h : Reads (leftHandSide sub) offset (w :: ws) c (depth + 1) offset' ws' Q e e') :
    Reads (binary sub 0) offset (w :: ws) c depth offset' ws' Q e e' := by
  intro s at_
  obtain ⟨i, s', run, after, grows, result⟩ :=
    reads_unary room unsigned (endsOperand_of_stop stop) h s at_
  refine ⟨i, s', ?_, after, grows, result⟩
  have loose : precedence c (headKind ws' e') = 0 := by
    rcases isStop_cases stop with k | k | k | k | k <;> rw [k] <;> rfl
  have done_ : operatorStep sub (offset + byteLength w.margin) 0 (some i) s' =
      (.done (some i), s') := by
    rw [operatorStep, run_bind after.kind, run_bind after.context_eq, loose]
    rfl
  rw [binary, run_bind at_.tokenStart, run_bind run]
  exact run_repeatWithin_done done_ _

theorem reads_conditional (stop : isStop (headKind ws' e') = true)
    (h : Reads (binary sub 0) offset (w :: ws) c depth offset' ws' Q e e') :
    Reads (conditional sub) offset (w :: ws) c depth offset' ws' Q e e' := by
  intro s at_
  obtain ⟨i, s', run, after, grows, result⟩ := h s at_
  refine ⟨i, s', ?_, after, grows, result⟩
  have other : headKind ws' e' ≠ .mark .question := by
    rcases isStop_cases stop with k | k | k | k | k <;> rw [k] <;> exact nofun
  rw [conditional, run_bind at_.tokenStart, run_bind run]
  change ((acceptMark .question >>= fun _ => _) : Parser Child) s' = _
  rw [run_bind (after.acceptMark_other other)]
  rfl

theorem reads_assignmentOrCondition (stop : isStop (headKind ws' e') = true)
    (h : Reads (binary sub 0) offset (w :: ws) c depth offset' ws' Q e e') :
    Reads (assignmentOrCondition sub) offset (w :: ws) c depth offset' ws' Q e e' := by
  intro s at_
  obtain ⟨i, s', run, after, grows, result⟩ := reads_conditional stop h s at_
  refine ⟨i, s', ?_, after, grows, result⟩
  rw [assignmentOrCondition, run_bind at_.tokenStart, run_bind run, run_bind after.kind]
  rcases isStop_cases stop with k | k | k | k | k <;> rw [k] <;> rfl

theorem At.noArrowAhead {s : ParserState} (at_ : At offset (w :: ws) c depth s e)
    (plain : isPlainStart w.kind = true) (other : headKind ws e ≠ .mark .arrow) :
    arrowAhead s = (none, s) := by
  rw [arrowAhead, run_bind at_.kind, headKind]
  rcases isPlainStart_cases plain with k | ⟨l, k⟩
  · rw [k]
    change ((Parser.atIdentifier >>= fun _ => _) : Parser (Option Bool)) s = _
    rw [run_bind at_.atIdentifier, headKind, k]
    change ((lookAhead tokenThenArrow >>= fun _ => _) : Parser (Option Bool)) s = _
    rw [run_bind (at_.noArrow other)]
    rfl
  · rw [k]
    change ((Parser.atIdentifier >>= fun _ => _) : Parser (Option Bool)) s = _
    rw [run_bind at_.atIdentifier, headKind, k]
    rfl

/-- Operands with operators between them are the whole expression before a stop, where no arrow
function begins. -/
theorem reads_assignment_of_noArrow (room : depth < maxDepth) (noYield : w.kind ≠ .word .yieldWord)
    (noArrow : ∀ s, At offset (w :: ws) c (depth + 1) s e → arrowAhead s = (none, s))
    (stop : isStop (headKind ws' e') = true)
    (h : Reads (binary sub 0) offset (w :: ws) c (depth + 1) offset' ws' Q e e') :
    Reads (assignment sub) offset (w :: ws) c depth offset' ws' Q e e' := by
  refine Reads.nested room fun s at_ => ?_
  have other : (headKind (w :: ws) e == .word .yieldWord) = false := beq_false_of_ne noYield
  have read := reads_assignmentOrCondition stop h s at_
  rw [assignmentHere, run_bind (at_.atWord .yieldWord), run_bind at_.context_eq, other, Bool.false_and,
    if_neg Bool.false_ne_true, run_bind (noArrow s at_)]
  exact read

theorem reads_assignment_binary (room : depth < maxDepth) (plain : isPlainStart w.kind = true)
    (other : headKind ws e ≠ .mark .arrow) (stop : isStop (headKind ws' e') = true)
    (h : Reads (binary sub 0) offset (w :: ws) c (depth + 1) offset' ws' Q e e') :
    Reads (assignment sub) offset (w :: ws) c depth offset' ws' Q e e' := by
  have noYield : w.kind ≠ .word .yieldWord := by
    rcases isPlainStart_cases plain with k | ⟨l, k⟩ <;> rw [k] <;> exact nofun
  exact reads_assignment_of_noArrow room noYield (fun _ at_ => at_.noArrowAhead plain other) stop h

theorem reads_assignment (room : depth + 1 < maxDepth) (plain : isPlainStart w.kind = true)
    (other : headKind ws e ≠ .mark .arrow) (stop : isStop (headKind ws' e') = true)
    (h : Reads (leftHandSide sub) offset (w :: ws) c (depth + 2) offset' ws' Q e e') :
    Reads (assignment sub) offset (w :: ws) c depth offset' ws' Q e e' := by
  have unsigned : operatorBefore? c w.kind = none := by
    rcases isPlainStart_cases plain with k | ⟨l, k⟩ <;> rw [k] <;> rfl
  exact reads_assignment_binary (by omega) plain other stop (reads_binary room unsigned stop h)

theorem reads_assignmentOrReport
    (h : Reads (sub .assignment) offset ws c depth offset' ws' Q e e') :
    Reads (assignmentOrReport sub) offset ws c depth offset' ws' Q e e' := by
  intro s at_
  obtain ⟨i, s', run, after, grows, result⟩ := h s at_
  refine ⟨i, s', ?_, after, grows, result⟩
  rw [assignmentOrReport, run_bind run]
  rfl

theorem reads_expression (stop : isStop (headKind ws' e') = true)
    (h : Reads (sub .assignment) offset (w :: ws) c depth offset' ws' Q e e') :
    Reads (expression sub) offset (w :: ws) c depth offset' ws' Q e e' := by
  intro s at_
  obtain ⟨i, s', run, after, grows, result⟩ := h s at_
  refine ⟨i, s', ?_, after, grows, result⟩
  have other : headKind ws' e' ≠ .mark .comma := by
    rcases isStop_cases stop with k | k | k | k | k <;> rw [k] <;> exact nofun
  have done_ : commaStep sub (offset + byteLength w.margin) (some i) s' =
      (.done (some i), s') := by
    rw [commaStep, run_bind (after.acceptMark_other other)]
    rfl
  rw [expression, run_bind at_.tokenStart, run_bind run]
  exact run_repeatWithin_done done_ _

end PathGuard.Parser
