import PathGuard.Proofs.Run.Primary
/-!
# Running members and calls

Every link takes a token, so no step of a row of links stays where it is.
-/

namespace PathGuard.Parser

open Known

variable {x : Room} {ready : Bool} {at_ : Lexer → Prop} {sub sub' : PhraseParser} {flags start : Nat}
  {questionDot : Bool} {object : Child}

/-! ### Arguments -/

theorem runs_argumentStep (tied : Tied x sub sub') (acc : List Child × Bool) (n : Nat) :
    Runs x true [.since n false] (argumentStep sub acc) (argumentStep sub' acc)
      (stepped (fun _ => []) n) := by
  refine .look looks_kind fun k => .ite (fun _ => .pure .nil) fun _ => ?_
  refine .steady (runs_spreadOrAssignment tied rfl) fun argument => ?_
  refine .ite (fun _ => .steady (runs_reportHere _) fun _ => .pure .nil) fun _ => ?_
  exact .acceptMark (.look (looks_isAt _) fun last => .pure (.subset (by simp))) (.pure .nil)

theorem passes_argumentList (tied : Tied x sub sub')
    (there : ∀ l, at_ l → l.kind = .mark .openParen) :
    PassesAt x ready at_ (argumentList sub) (argumentList sub') fun _ => [] := by
  intro n
  refine .look looks_tokenStart fun start => .expectThere there (by simp) ?_
  refine .steady (.within _ (.repeatingPlain (runs_argumentStep tied) ([], false))) fun acc => ?_
  exact .steady (runs_expectMark _) fun _ => .last (fun s => rfl) fun _ => .refl _

/-! ### Links -/

theorem runs_propertyAccess :
    RunsAt x ready at_ [] (propertyAccess flags start object questionDot)
      (propertyAccess flags start object questionDot) plain :=
  .call (.unmarked runs_identifierName) fun _ => .addFlagged rfl

theorem passes_elementAccess (tied : Tied x sub sub')
    (there : ∀ l, at_ l → l.kind = .mark .openBracket) :
    PassesAt x ready at_ (elementAccess sub flags start object questionDot)
      (elementAccess sub' flags start object questionDot) plain := by
  intro n
  refine .expectThere there (by simp) ?_
  refine .steady (.within _ ((runs_expression tied).imp fun _ => .nil)) fun key => ?_
  exact .steady (runs_expectMark _) fun _ => RunsAt.retain (.addFlagged rfl)

theorem passes_call (tied : Tied x sub sub') (there : ∀ l, at_ l → l.kind = .mark .openParen) :
    PassesAt x ready at_ (call sub flags start object) (call sub' flags start object) plain :=
  fun _ => .past (passes_argumentList tied there) fun _ => RunsAt.retain (.addFlagged rfl)

theorem runs_optionalLink (tied : Tied x sub sub') :
    RunsAt x ready at_ [] (optionalLink sub start object) (optionalLink sub' start object) plain := by
  refine .kind fun k => ?_
  split
  · exact .of_passes (passes_elementAccess tied fun l here => here.2)
  · exact .of_passes (passes_call tied fun l here => here.2)
  · exact runs_propertyAccess

theorem passes_taggedTemplate (tied : Tied x sub sub') (chained : Bool)
    (literal : ∀ l, at_ l → IsLiteral l.kind) :
    PassesAt x ready at_ (taggedTemplate sub chained flags start object)
      (taggedTemplate sub' chained flags start object) plain := by
  intro n
  have joined : RunsAt x ready at_ [.since n false] (do
      let text ← template sub
      addFlagged .taggedTemplate flags start (.taggedTemplate object text)) (do
      let text ← template sub'
      addFlagged .taggedTemplate flags start (.taggedTemplate object text))
      fun c => .since n true :: plain c :=
    .past (passes_template tied literal) fun _ =>
      .given (P := [.since n true]) (RunsAt.retain (.addFlagged rfl)) (.subset (by simp))
  exact .ite (fun _ => .report joined) fun _ => joined

def linkable (x : Room) (object : Child) : List Known := [.low object 0 (2 * x.levels - 1 + 1)]

theorem covers_linkable {P : List Known} {node : Child} {n : Nat} (moved : .since n true ∈ P)
    (made : .low node 0 0 ∈ P) : Covers P (.since n true :: linkable x node) :=
  .cons (gives_mem moved) (.one (gives_low made (Nat.le_refl _) (Nat.zero_le _)))

theorem runs_linkStep (tied : Tied x sub sub') (allowCalls : Bool) (acc : Child × Bool) (n : Nat) :
    Runs x ready (.since n false :: linkable x acc.1) (linkStep sub start allowCalls acc)
      (linkStep sub' start allowCalls acc) (stepped (fun acc => linkable x acc.1) n) := by
  obtain ⟨object, chained⟩ := acc
  have passed {at_ : Lexer → Prop} {act act' : Parser Child} (chained : Bool)
      (h : PassesAt x ready at_ act act' plain) :
      RunsAt x ready at_ (.since n false :: linkable x object)
        (act >>= fun node => pure (.yield (node, chained)))
        (act' >>= fun node => pure (.yield (node, chained)))
        (stepped (fun acc => linkable x acc.1) n) :=
    .past h fun node => .pure (covers_linkable (by simp) (by simp [plain]))
  refine .kind fun k => ?_
  split
  · refine .advance (fun l here => notEnd_mark here.2) (runs_propertyAccess.call fun node => ?_)
    exact .pure (covers_linkable (by simp) (by simp [plain]))
  · exact passed _ (passes_elementAccess tied fun l here => here.2)
  · refine .ite (fun _ => ?_) fun _ => .pure (.subset (List.subset_cons_self _ _))
    exact passed _ (passes_call tied fun l here => here.2)
  · refine .ite (fun _ => ?_) fun _ => .pure (.subset (List.subset_cons_self _ _))
    refine .advance (fun l here => notEnd_mark here.2) ((runs_optionalLink tied).call fun node => ?_)
    exact .pure (covers_linkable (by simp) (by simp [plain]))
  · exact passed _ (passes_taggedTemplate tied chained fun l here => ⟨_, here.2⟩)
  · exact passed _ (passes_taggedTemplate tied chained fun l here => ⟨_, here.2⟩)
  · exact .pure (.subset (List.subset_cons_self _ _))

theorem runs_links (tied : Tied x sub sub') (allowCalls : Bool) :
    RunsAt x ready at_ (linkable x object) (links sub start object allowCalls)
      (links sub' start object allowCalls) (linkable x) :=
  .bind (Q := fun acc => linkable x acc.1)
    (.repeating (I := fun acc => linkable x acc.1) (runs_linkStep tied allowCalls) (object, false))
    fun _ => .pure (.refl _)

/-! ### What the links follow -/

theorem runs_callee (tied : Tied x sub sub') :
    RunsAt x true at_ [] (callee sub) (callee sub') (linkable x) := by
  have joined (start : Nat) (object : Child) : Runs x true (linkable x object)
      (if object.isSome then links sub start object false
        else do
          reportHere .expressionExpected
          return none)
      (if object.isSome then links sub' start object false
        else do
          reportHere .expressionExpected
          return none) (linkable x) :=
    .ite (fun _ => runs_links tied false) fun _ => .report (.pure (.one (gives_none _ _)))
  refine .look looks_tokenStart fun start => .isAt ?_ ?_
  · refine .bind (RunsAt.imp ((tied.at' .newExpression).at' fun l here => here.2) fun c => ?_)
      (joined start)
    refine .one (gives_low (List.mem_singleton_self _) (Nat.le_refl _) ?_)
    change 2 * x.levels ≤ 2 * x.levels - 1 + 1
    omega
  · exact (runs_primary tied).bind (joined start)

theorem runs_newExpression (tied : Tied x sub sub') (notEnd : ∀ l, at_ l → NotEnd l) :
    RunsAt x ready at_ [] (newExpression sub) (newExpression sub')
      fun c => [.low c 0 (2 * x.levels)] := by
  refine .nested (fun room => .look looks_tokenStart fun start => .advance notEnd ?_)
    (.one (gives_none _ _))
  have levels := x.levels_deeper room
  have made (object : Child) (arguments : Option NodeList) : Runs x.deeper true
      (linkable x.deeper object) (add .newExpression start (.call object arguments))
      (add .newExpression start (.call object arguments)) fun c => [.low c 0 (2 * x.levels)] := by
    refine .addDeeper (d := .callee) rfl rfl rfl nofun (List.mem_singleton_self _) ?_ ?_
    · omega
    · exact rest_cap x (Nat.le_refl _)
  refine .acceptMark ?_ ((runs_callee tied.deeper).call fun object => .isAt ?_ ?_)
  · exact .call (.unmarked runs_identifierName) fun name => (RunsAt.add rfl).imp fun _ => .of_plain
  · refine .steady (.bind (Q := fun _ => []) ?_ fun _ => .pure .nil) (made object)
    exact .of_passes (passes_argumentList tied.deeper fun l here => here.2)
  · exact .known (made object none).any

theorem runs_leftHandSide (tied : Tied x sub sub') :
    RunsAt x ready at_ [] (leftHandSide sub) (leftHandSide sub') (linkable x) := by
  have joined (start : Nat) (object : Child) : Runs x ready (linkable x object)
      (if object.isNone then pure none else links sub start object true)
      (if object.isNone then pure none else links sub' start object true) (linkable x) :=
    .ite (fun _ => .pure (.one (gives_none _ _))) fun _ => runs_links tied true
  refine .look looks_tokenStart fun start => .isAt ?_ ?_
  · refine .bind (RunsAt.imp (runs_newExpression tied fun l here => notEnd_word here.2) fun c => ?_)
      (joined start)
    exact .one (gives_low (List.mem_singleton_self _) (Nat.le_refl _) (by omega))
  · exact (runs_primary tied).bind (joined start)

end PathGuard.Parser
