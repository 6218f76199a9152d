import PathGuard.Proofs.Grammar.Reading
import PathGuard.Proofs.Run.Running
import PathGuard.Proofs.Span.Name
/-!
# Laws of running alike

What the operations on the state do to what is known. A token that is passed gives a phrase to spare,
and so does a level that is opened. Where a step that is not done has passed a token, repeating it comes
to an end.
-/

namespace PathGuard.Parser

open Known ParserState

variable {α β σ : Type} {x : Room} {ready : Bool} {at_ : Lexer → Prop} {P : List Known}
  {act act' : Parser α} {next next' : α → Parser β} {Q : α → List Known} {R : β → List Known}
  {s : ParserState}

/-! ### What single operations do -/

theorem report_lexer (start length : Nat) (cause : SyntaxError) (s : ParserState) :
    (report start length cause s).2.lexer = s.lexer := by
  change (if s.lastProblem = some start then s else _ : ParserState).lexer = s.lexer
  split <;> rfl

theorem reportHere_lexer (cause : SyntaxError) (s : ParserState) :
    (reportHere cause s).2.lexer = s.lexer := report_lexer _ _ cause s

theorem returns_reportHere (cause : SyntaxError) (s : ParserState) :
    Returns s (reportHere cause s).2 :=
  .of_move (.report cause) (reportHere_lexer cause s) (Idle.moving.reportHere cause s).2

theorem runs_reportHere (cause : SyntaxError) :
    RunsAt x ready at_ [] (reportHere cause) (reportHere cause) fun _ => [] :=
  fun s _ _ => ⟨rfl, returns_reportHere cause s, nofun⟩

theorem passes_advance (notEnd : ∀ l, at_ l → NotEnd l) :
    PassesAt x ready at_ advance advance fun _ => [] := by
  intro n s begins here
  obtain ⟨onward, lexer, -⟩ := moves_advance begins.standing.footing
  have shorter := shorter_behind begins.standing.footing (notEnd _ here) lexer
  refine ⟨rfl, ⟨.single .advance, onward.depth, .inr shorter⟩, ?_⟩
  rintro q (_ | ⟨_, never⟩)
  · exact Nat.le_trans shorter (begins.holds _ (List.mem_singleton_self _))
  · cases never

/-! ### Tokens -/

namespace RunsAt

theorem glance (told : α → Lexer → Prop) (looks : Looks act) (tells : ∀ s, told (act s).1 s.lexer)
    (k : ∀ a, RunsAt x ready (fun l => at_ l ∧ told a l) P (next a) (next' a) R) :
    RunsAt x ready at_ P (act >>= next) (act >>= next') R := by
  intro s begins here
  have answered : act s = ((act s).1, s) := Prod.ext rfl (looks s)
  rw [run_bind answered, run_bind answered]
  exact k _ s begins ⟨here, tells s⟩

theorem kind {next next' : TokenKind → Parser β}
    (k : ∀ found, RunsAt x ready (fun l => at_ l ∧ l.kind = found) P (next found) (next' found) R) :
    RunsAt x ready at_ P (Parser.kind >>= next) (Parser.kind >>= next') R :=
  .glance (fun found l => l.kind = found) looks_kind (fun _ => rfl) k

theorem place {next next' : Nat → Parser β}
    (k : ∀ start, RunsAt x ready (fun l => at_ l ∧ l.first.offset = start) P (next start)
      (next' start) R) :
    RunsAt x ready at_ P (tokenStart >>= next) (tokenStart >>= next') R :=
  .glance (fun start l => l.first.offset = start) looks_tokenStart (fun _ => rfl) k

theorem ask {act : Parser Bool} {next next' : Bool → Parser β} {told : Lexer → Prop}
    (looks : Looks act) (tells : ∀ s, (act s).1 = true → told s.lexer)
    (yes : RunsAt x ready (fun l => at_ l ∧ told l) P (next true) (next' true) R)
    (no : RunsAt x ready at_ P (next false) (next' false) R) :
    RunsAt x ready at_ P (act >>= next) (act >>= next') R := by
  refine .glance (fun found l => found = true → told l) looks tells fun found => ?_
  cases found with
  | true => exact yes.at' fun l here => ⟨here.1, here.2 rfl⟩
  | false => exact no.at' fun l here => here.1

theorem isAt {wanted : TokenKind} {next next' : Bool → Parser β}
    (yes : RunsAt x ready (fun l => at_ l ∧ l.kind = wanted) P (next true) (next' true) R)
    (no : RunsAt x ready (fun l => at_ l ∧ l.kind ≠ wanted) P (next false) (next' false) R) :
    RunsAt x ready at_ P (Parser.isAt wanted >>= next) (Parser.isAt wanted >>= next') R := by
  refine .glance (fun found l => found = (l.kind == wanted)) (looks_isAt _) (fun _ => rfl)
    fun found => ?_
  cases found with
  | true => exact yes.at' fun l here => ⟨here.1, eq_of_beq here.2.symm⟩
  | false => exact no.at' fun l here => ⟨here.1, ne_of_beq_false here.2.symm⟩

theorem still (h : RunsAt x ready at_ [] act act' Q) (unread : ∀ s, (act s).2.lexer = s.lexer)
    (k : ∀ a, RunsAt x ready at_ (P ++ Q a) (next a) (next' a) R) :
    RunsAt x ready at_ P (act >>= next) (act' >>= next') R := by
  intro s begins here
  obtain ⟨same, returns, holds⟩ := (h.given (.nil (P := P))).retain s begins here
  exact onward same returns (k _ _ (begins.later returns holds) (by rwa [unread]))

theorem report {cause : SyntaxError} {next next' : Unit → Parser β}
    (k : RunsAt x ready at_ P (next ()) (next' ()) R) :
    RunsAt x ready at_ P (reportHere cause >>= next) (reportHere cause >>= next') R :=
  .still (runs_reportHere cause) (reportHere_lexer cause) fun _ =>
    k.given (.subset (List.subset_append_left _ _))

theorem advance {next next' : Unit → Parser β} (notEnd : ∀ l, at_ l → NotEnd l)
    (k : Runs x true (P.map Known.pass) (next ()) (next' ()) R) :
    RunsAt x ready at_ P (Parser.advance >>= next) (Parser.advance >>= next') R :=
  .past (passes_advance notEnd) fun _ => by rwa [List.append_nil]

theorem accept {k : TokenKind} {next next' : Bool → Parser β} (notEnd : k ≠ .endOfFile)
    (yes : Runs x true (P.map Known.pass) (next true) (next' true) R)
    (no : RunsAt x ready (fun l => at_ l ∧ l.kind ≠ k) P (next false) (next' false) R) :
    RunsAt x ready at_ P (Parser.accept k >>= next) (Parser.accept k >>= next') R := by
  unfold Parser.accept
  rw [bind_assoc, bind_assoc]
  refine .isAt ?_ ?_
  · rw [if_pos rfl, bind_assoc, bind_assoc]
    exact .advance (fun l here ended => notEnd (here.2.symm.trans ended)) (.known yes)
  · rw [if_neg Bool.false_ne_true]
    exact .known no

theorem acceptMark {p : Punctuator} {next next' : Bool → Parser β}
    (yes : Runs x true (P.map Known.pass) (next true) (next' true) R)
    (no : RunsAt x ready (fun l => at_ l ∧ l.kind ≠ .mark p) P (next false) (next' false) R) :
    RunsAt x ready at_ P (Parser.acceptMark p >>= next) (Parser.acceptMark p >>= next') R :=
  accept (by simp) yes no

theorem acceptWord {w : Keyword} {next next' : Bool → Parser β}
    (yes : Runs x true (P.map Known.pass) (next true) (next' true) R)
    (no : RunsAt x ready (fun l => at_ l ∧ l.kind ≠ .word w) P (next false) (next' false) R) :
    RunsAt x ready at_ P (Parser.acceptWord w >>= next) (Parser.acceptWord w >>= next') R :=
  accept (by simp) yes no

theorem expectThere {k : TokenKind} {next next' : Unit → Parser β}
    (there : ∀ l, at_ l → l.kind = k) (notEnd : k ≠ .endOfFile)
    (then_ : Runs x true (P.map Known.pass) (next ()) (next' ()) R) :
    RunsAt x ready at_ P (Parser.expect k >>= next) (Parser.expect k >>= next') R := by
  unfold Parser.expect
  rw [bind_assoc, bind_assoc]
  refine .accept notEnd ?_ (.absurd fun l here => here.2 (there l here.1))
  rw [if_pos rfl]
  exact .known then_

theorem expectMissing {k : TokenKind} {next next' : Unit → Parser β}
    (other : ∀ l, at_ l → l.kind ≠ k) (then_ : RunsAt x ready at_ P (next ()) (next' ()) R) :
    RunsAt x ready at_ P (Parser.expect k >>= next) (Parser.expect k >>= next') R := by
  unfold Parser.expect Parser.accept
  rw [bind_assoc, bind_assoc, bind_assoc, bind_assoc]
  exact .isAt (.absurd fun l here => other l here.1 here.2) (.report (then_.at' fun l here => here.1))

end RunsAt

theorem runs_accept {k : TokenKind} (notEnd : k ≠ .endOfFile) :
    RunsAt x ready at_ [] (accept k) (accept k) fun _ => [] := by
  rw [← bind_pure (accept k)]
  exact .accept notEnd (.pure .nil) (.pure .nil)

theorem runs_acceptMark (p : Punctuator) :
    RunsAt x ready at_ [] (acceptMark p) (acceptMark p) fun _ => [] := runs_accept (by simp)

theorem runs_acceptWord (w : Keyword) :
    RunsAt x ready at_ [] (acceptWord w) (acceptWord w) fun _ => [] := runs_accept (by simp)

theorem runs_expect {k : TokenKind} (notEnd : k ≠ .endOfFile) :
    RunsAt x ready at_ [] (expect k) (expect k) fun _ => [] :=
  .steady (runs_accept notEnd) fun _ => .ite (fun _ => .pure .nil) fun _ => runs_reportHere _

theorem RunsAt.expectReady {k : TokenKind} {next next' : Unit → Parser β} (notEnd : k ≠ .endOfFile)
    (spare : ready = true ∨ ∀ l, at_ l → l.kind = k) (then_ : Runs x true P (next ()) (next' ()) R) :
    RunsAt x ready at_ P (expect k >>= next) (expect k >>= next') R := by
  rcases spare with rfl | there
  · exact .steady (runs_expect notEnd) fun _ => then_
  · exact .expectThere there notEnd (then_.given (.of_pass P))

theorem runs_expectMark (p : Punctuator) :
    RunsAt x ready at_ [] (expectMark p) (expectMark p) fun _ => [] := runs_expect (by simp)

theorem runs_expectWord (w : Keyword) :
    RunsAt x ready at_ [] (expectWord w) (expectWord w) fun _ => [] := runs_expect (by simp)

theorem runs_endStatement : RunsAt x ready at_ [] endStatement endStatement fun _ => [] := by
  refine .steady (runs_acceptMark _) fun found => .ite (fun _ => .pure .nil) fun _ => ?_
  exact .look looks_atStatementEnd fun ended => .ite (fun _ => .pure .nil) fun _ =>
    runs_expectMark _

namespace RunsAt

/-! ### Context, depth and repetition -/

theorem within (change : Context → Context) (h : RunsAt x ready at_ P act act' Q) :
    RunsAt x ready at_ P (Parser.within change act) (Parser.within change act') Q := by
  intro s begins here
  let inside : ParserState := { s with context := change s.context }
  have enter : Move s inside := .context _
  have entered : Returns s inside := .of_move enter rfl rfl
  have forward := enter.forward begins.standing
  obtain ⟨same, returns, holds⟩ := h inside
    (begins.later entered fun p hp => (begins.holds p hp).forward forward) here
  have leave : Move (act inside).2 { (act inside).2 with context := s.context } := .context _
  have standing := (returns.moves.forward forward.standing).standing
  refine ⟨?_, (entered.trans returns).trans (.of_move leave rfl rfl),
    fun q hq => (holds q hq).forward (leave.forward standing)⟩
  change ((act' inside).1, { (act' inside).2 with context := s.context }) =
    ((act inside).1, { (act inside).2 with context := s.context })
  rw [same]

theorem runs_skipAsMissing {Q : Child → List Known} (none_ : Covers [] (Q none)) :
    RunsAt x ready at_ [] Parser.skipAsMissing Parser.skipAsMissing Q :=
  .isAt (.pure none_) (.advance (fun _ here => here.2) (.pure none_))

/-- One level deeper there is a phrase to spare. At the greatest depth the current token is skipped. -/
theorem nested {act act' : Parser Child} {Q : Child → List Known}
    (h : x.depth < maxDepth → RunsAt x.deeper true at_ [] act act' Q) (none_ : Covers [] (Q none)) :
    RunsAt x ready at_ [] (Parser.nested act) (Parser.nested act') Q := by
  intro s begins here
  have depth := begins.depth
  by_cases deepest : maxDepth ≤ s.depth
  · rw [run_nested_deepest deepest, run_nested_deepest deepest]
    exact (RunsAt.report (runs_skipAsMissing none_)) s begins here
  · have room : x.depth < maxDepth := by omega
    have enter : Move s s.deeper := .depth _ _
    have forward := enter.forward begins.standing
    have levels := x.levels_deeper room
    have enough := begins.enough
    obtain ⟨same, returns, holds⟩ := h room s.deeper
      { standing := forward.standing
        depth := congrArg (· + 1) depth
        deep := room
        enough := by
          change s.lexer.first.rest.length + x.deeper.levels + 1 ≤ x.fuel
          omega
        holds := nofun } here
    have leave : Move (act s.deeper).2
        { (act s.deeper).2 with depth := (act s.deeper).2.depth - 1 } := .depth _ _
    have standing := (returns.moves.forward forward.standing).standing
    rw [run_nested_deeper deepest, run_nested_deeper deepest]
    refine ⟨by rw [same], ⟨?_, ?_, returns.onward⟩, fun q hq => (holds q hq).forward (leave.forward standing)⟩
    · exact (Relation.ReflTransGen.head enter returns.moves).tail leave
    · change (act s.deeper).2.depth - 1 = s.depth
      rw [returns.depth]
      rfl

theorem since (k : ∀ n, RunsAt x ready at_ (.since n false :: P) act act' Q) :
    RunsAt x ready at_ P act act' Q := by
  intro s begins here
  refine k s.lexer.first.rest.length s { begins with holds := ?_ } here
  rintro p (_ | ⟨_, hp⟩)
  · exact Nat.le_refl _
  · exact begins.holds p hp

end RunsAt

/-- What a step leaves: what belongs to the answer so far, and unless it is done, less of the text. -/
def stepped (I : σ → List Known) (n : Nat) : ForInStep σ → List Known
  | .done acc => I acc
  | .yield acc => .since n true :: I acc

@[simp]
theorem stepped_done (I : σ → List Known) (n : Nat) (acc : σ) : stepped I n (.done acc) = I acc := rfl

@[simp]
theorem stepped_yield (I : σ → List Known) (n : Nat) (acc : σ) :
    stepped I n (.yield acc) = .since n true :: I acc := rfl

namespace RunsAt

theorem repeating {I : σ → List Known} {step step' : σ → Parser (ForInStep σ)}
    (h : ∀ acc n, Runs x ready (.since n false :: I acc) (step acc) (step' acc) (stepped I n))
    (acc : σ) :
    RunsAt x ready at_ (I acc) (Parser.repeating step acc) (Parser.repeating step' acc) I := by
  have once (acc : σ) : Runs x ready (I acc) (step acc) (step' acc) fun answer => I answer.value := by
    refine .since fun n => (h acc n).imp fun answer => ?_
    cases answer with
    | done acc => exact .refl _
    | yield acc => exact .subset (List.subset_cons_self _ _)
  have bounded (bound : List Char) (acc : σ) :
      Runs x ready (I acc) (repeatWithin step bound acc) (repeatWithin step' bound acc) I := by
    induction bound generalizing acc with
    | nil =>
      refine (once acc).bind fun answer => ?_
      cases answer <;> exact .pure (.refl _)
    | cons c bound ih =>
      refine (once acc).bind fun answer => ?_
      cases answer with
      | done acc => exact .pure (.refl _)
      | yield acc => exact ih acc
  exact .look looks_textLeft fun text => (bounded text acc).any

theorem repeatingPlain {step step' : σ → Parser (ForInStep σ)}
    (h : ∀ acc n, Runs x ready [.since n false] (step acc) (step' acc) (stepped (fun _ => []) n))
    (acc : σ) :
    RunsAt x ready at_ [] (Parser.repeating step acc) (Parser.repeating step' acc) fun _ => [] :=
  repeating (I := fun _ => []) h acc

/-! ### Other readings -/

theorem rescan (at' : Lexer → Prop) {change : Lexer → Lexer} {cause : SyntaxError}
    {next next' : Unit → Parser β}
    (move : ∀ s : ParserState, at_ s.lexer → Move s (Parser.rescan change cause s).2)
    (first : ∀ l : Lexer, (change l).first = l.first) (now : ∀ l, at_ l → at' (change l))
    (k : ∀ n, RunsAt x ready at' (.since n false :: P) (next ()) (next' ())
      fun b => .since n true :: R b) :
    RunsAt x ready at_ P (Parser.rescan change cause >>= next) (Parser.rescan change cause >>= next')
      R := by
  intro s begins here
  have moved := move s here
  have forward := moved.forward begins.standing
  have lexer : (Parser.rescan change cause s).2.lexer = change s.lexer := by
    rw [run_rescan]
    split
    · exact reportHere_lexer cause _
    · rfl
  have left : (Parser.rescan change cause s).2.lexer.first.rest.length =
      s.lexer.first.rest.length := by rw [lexer, first]
  have depth := (idle_rescan change cause s).2
  obtain ⟨same, returns, holds⟩ := k s.lexer.first.rest.length (Parser.rescan change cause s).2
    { standing := forward.standing
      depth := depth.trans begins.depth
      deep := begins.deep
      enough := by rw [left]; exact begins.enough
      holds := by
        rintro p (_ | ⟨_, hp⟩)
        · exact Nat.le_of_eq left
        · exact (begins.holds p hp).forward forward }
    (lexer ▸ now _ here)
  refine ⟨same, ⟨.head moved returns.moves, returns.depth.trans depth, .inr ?_⟩,
    fun q hq => holds q (List.mem_cons_of_mem _ hq)⟩
  exact holds _ (List.mem_cons_self ..)

/-! ### Nodes -/

theorem last (h : Looks act) (covers : ∀ a, Covers P (Q a)) : RunsAt x ready at_ P act act Q := by
  rw [← bind_pure act]
  exact .look h fun a => .pure (covers a)

theorem growing {grow : Tree → NodeId × Tree} {Q : Child → List Known}
    (move : ∀ s : ParserState, Begins x ready P s →
      Move s { s with tree := (grow s.tree).2 })
    (holds : ∀ s : ParserState, Begins x ready P s →
      ∀ q ∈ Q (some (grow s.tree).1), q.Holds { s with tree := (grow s.tree).2 }) :
    RunsAt x ready at_ P (Parser.growing grow) (Parser.growing grow) Q :=
  fun s begins _ => ⟨rfl, .of_move (move s begins) rfl rfl, holds s begins⟩

variable {k : NodeKind} {right rest flags start stop : Nat} {r : Record}

theorem addToken (ordinary : k.isOrdinary = true) :
    RunsAt x ready at_ P (Parser.addToken k start stop) (Parser.addToken k start stop) plain := by
  refine .growing (fun s _ => .token start stop ordinary) fun s _ => ?_
  rintro q (_ | ⟨_, never⟩)
  · exact Tree.low_addToken s.tree ordinary start stop 0 0
  · cases never

theorem addOrdinary (ordinary : k.isOrdinary = true) :
    RunsAt x ready at_ P (Parser.growing fun tree => tree.add k flags start stop r)
      (Parser.growing fun tree => tree.add k flags start stop r) plain := by
  refine .growing (fun s _ => .node flags start stop (NodeKind.ne_sourceFile_of_isOrdinary ordinary)
    (Tree.admits_of_isOrdinary ordinary)) fun s _ => ?_
  rintro q (_ | ⟨_, never⟩)
  · exact Tree.low_add_ordinary s.tree ordinary flags start stop r 0 0
  · cases never

theorem addSpanned (ordinary : k.isOrdinary = true) :
    RunsAt x ready at_ P (Parser.addSpanned k start stop r) (Parser.addSpanned k start stop r) plain :=
  addOrdinary ordinary

theorem addFlagged (ordinary : k.isOrdinary = true) :
    RunsAt x ready at_ P (Parser.addFlagged k flags start r) (Parser.addFlagged k flags start r) plain :=
  .look looks_previousEnd fun _ => addOrdinary ordinary

theorem add (ordinary : k.isOrdinary = true) :
    RunsAt x ready at_ P (Parser.add k start r) (Parser.add k start r) plain := addFlagged ordinary

/-- A construct that is nested in its own kind makes chains longer by one. -/
theorem addNested {c : Child} {d : Descent} {right' rest' : Nat} (joined : k.descent? = some d)
    (shape : k.shape? = some r.shape) (leads : ∀ j, d.target r = some j → c = some j)
    (held : Gives P (.low c right rest))
    (room : d.bound right rest + 1 ≤ d.bound right' rest')
    (cap : d.bound right' rest' ≤ 2 * maxDepth) :
    RunsAt x ready at_ P (Parser.add k start r) (Parser.add k start r)
      fun c => [.low c right' rest'] := by
  have within (s : ParserState) (begins : Begins x ready P s) (j : NodeId)
      (target : d.target r = some j) : s.tree.Within d (d.bound right rest) j :=
    held s begins.holds j (leads j target) d
  refine .look looks_previousEnd fun stop => .growing (fun s begins => ?_) fun s begins => ?_
  · refine .node 0 start stop (NodeKind.ne_sourceFile_of_descent? joined) fun d' joined' => ?_
    obtain rfl := Option.some.inj (joined.symm.trans joined')
    exact ⟨shape, fun j target => (within s begins j target).mono (by omega)⟩
  · rintro q (_ | ⟨_, never⟩)
    · exact Tree.low_add begins.standing.pools 0 start stop joined shape (within s begins) room
    · cases never

theorem addRight {left part : Child} {operator : NodeKind} {right' rest' : Nat}
    (held : .low part right rest ∈ P) (room : right + 1 ≤ right') (cap : right' ≤ 2 * maxDepth) :
    RunsAt x ready at_ P (Parser.add .binaryExpression start (.binary left operator part))
      (Parser.add .binaryExpression start (.binary left operator part))
      fun c => [.low c right' rest'] := by
  refine .addNested (d := .rightOperand) (c := part) rfl rfl (fun j target => ?_)
    (gives_mem held) room cap
  change (if operator = .token (.mark .asteriskAsterisk) then none else part) = some j at target
  split at target
  · cases target
  · exact target

theorem addPower {left part : Child} {right' rest' : Nat} (room : 1 ≤ right')
    (cap : right' ≤ 2 * maxDepth) :
    RunsAt x ready at_ P
      (Parser.add .binaryExpression start (.binary left (.token (.mark .asteriskAsterisk)) part))
      (Parser.add .binaryExpression start (.binary left (.token (.mark .asteriskAsterisk)) part))
      fun c => [.low c right' rest'] := by
  have nowhere : Descent.target .rightOperand
      (.binary left (.token (.mark .asteriskAsterisk)) part) = none := by
    rw [Descent.target, if_pos rfl]
  exact .addNested (d := .rightOperand) rfl rfl (fun _ target => nowhere.symm.trans target)
    (gives_none 0 0) room cap

theorem addDeeper {part : Child} {d : Descent} {right' rest' : Nat} (joined : k.descent? = some d)
    (shape : k.shape? = some r.shape) (leads : d.target r = part) (other : d ≠ .rightOperand)
    (held : .low part right rest ∈ P) (room : rest + 1 ≤ rest') (cap : rest' ≤ 2 * maxDepth) :
    RunsAt x ready at_ P (Parser.add k start r) (Parser.add k start r)
      fun c => [.low c right' rest'] := by
  have bound (right rest : Nat) : d.bound right rest = rest := by
    cases d with
    | rightOperand => exact (other rfl).elim
    | _ => rfl
  refine .addNested joined shape (fun _ target => leads.symm.trans target) (gives_mem held) ?_ ?_
  · rwa [bound, bound]
  · rwa [bound]

theorem addBare (ordinary : k.isOrdinary = true) :
    RunsAt x ready at_ P (Parser.addBare k start) (Parser.addBare k start) plain :=
  .look looks_previousEnd fun _ => addToken ordinary

end RunsAt

end PathGuard.Parser
