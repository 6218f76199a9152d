import PathGuard.Proofs.Run.Program
/-!
# Loops and phrases without a bound

With as much fuel as the text and the depth that are left call for, every phrase is what its rule makes
of it. A step of a loop that goes on has passed a token, so a loop ends where a step of it is done, and
its bound never cuts it off.
-/

namespace PathGuard

namespace ParserState

/-- Whether a parser stands in a text, no deeper than it may. -/
structure Fit (text : List Char) (s : ParserState) : Prop where
  standing : s.Standing text
  depth : s.depth ≤ maxDepth

theorem Fit.returns {text : List Char} {s s' : ParserState} (fit : s.Fit text)
    (returns : Parser.Returns s s') : s'.Fit text where
  standing := (returns.moves.forward fit.standing).standing
  depth := returns.depth ▸ fit.depth

end ParserState

namespace Parser

open Known ParserState

variable {α β σ : Type} {text : List Char} {s : ParserState}

/-! ### Phrases -/

/-- Every phrase, with the fuel that it takes. -/
def unbounded : PhraseParser := fun p s =>
  phrase (s.lexer.first.rest.length + (maxDepth - s.depth) + 1) p s

/-- More fuel than a phrase takes changes nothing. -/
theorem tied_unbounded_phraseFrom (stuck : PhraseParser) {x : Room} {fuel : Nat}
    (le : x.fuel ≤ fuel) : Tied x unbounded (phraseFrom stuck fuel) := by
  intro depth p s begins here
  have enough := begins.enough
  have taken : unbounded p s = phraseFrom (fun _ => return none)
      (s.lexer.first.rest.length + (maxDepth - depth) + 1) p s := by
    rw [unbounded, phrase_eq_phraseFrom, begins.depth]
  rw [taken]
  exact tied_phraseFrom _ stuck x.text depth (Nat.le_trans enough le) depth p s
    { begins with enough := Nat.le_refl _ } here

theorem tied_unbounded (x : Room) : Tied x unbounded unbounded := by
  intro depth p s begins here
  obtain ⟨-, returns, holds⟩ :=
    tied_unbounded_phraseFrom (fun _ => return none) (Nat.le_refl _) depth p s begins here
  exact ⟨rfl, returns, holds⟩

theorem begins_of_fit (fit : s.Fit text) (ready : Bool) {P : List Known}
    (holds : ∀ p ∈ P, p.Holds s) :
    Begins ⟨text, s.lexer.first.rest.length + (maxDepth - s.depth) + ready.toNat, s.depth⟩ ready P s where
  standing := fit.standing
  depth := rfl
  deep := fit.depth
  enough := Nat.le_refl _
  holds := holds

theorem unbounded_of_fit {p : Phrase} (fit : s.Fit text) (here : p.begins s.lexer) :
    unbounded p s = rule unbounded p s ∧ (unbounded p s).2.Fit text := by
  have ruled : RunsAt ⟨text, s.lexer.first.rest.length + (maxDepth - s.depth), s.depth⟩ false p.begins []
      _ _ _ :=
    runs_rule (tied_unbounded_phraseFrom (fun _ => return none) (Nat.le_refl _)) p
  obtain ⟨same, returns, -⟩ := ruled s (begins_of_fit fit false nofun) here
  have taken : unbounded p s = rule unbounded p s := by
    rw [← same, unbounded, phrase_eq_phraseFrom]
    rfl
  exact ⟨taken, taken ▸ fit.returns returns⟩

/-! ### Loops -/

/-- How a loop goes on: its steps keep to the text and the depth, one that is not done has passed a
token, and it is repeated until one is done. -/
structure Advances (text : List Char) (step : σ → Parser (ForInStep σ)) : Prop where
  fit : ∀ acc s, s.Fit text → (step acc s).2.Fit text
  passes : ∀ acc s, s.Fit text → ∀ acc', (step acc s).1 = .yield acc' →
    (step acc s).2.lexer.first.rest.length < s.lexer.first.rest.length
  repeats : ∀ acc s, s.Fit text → repeating step acc s = (do
    match ← step acc with
    | .done acc => return acc
    | .yield acc => repeating step acc) s

section

variable {step : σ → Parser (ForInStep σ)} {acc acc' : σ}

theorem repeatWithin_done (found : (step acc s).1 = .done acc') (bound : List Char) :
    repeatWithin step bound acc s = (acc', (step acc s).2) := by
  have answered : step acc s = (.done acc', (step acc s).2) := Prod.ext found rfl
  cases bound with
  | nil => rw [repeatWithin, run_bind answered]; rfl
  | cons c bound => rw [repeatWithin, run_bind answered]; rfl

theorem repeatWithin_yield (found : (step acc s).1 = .yield acc') (c : Char) (bound : List Char) :
    repeatWithin step (c :: bound) acc s = repeatWithin step bound acc' (step acc s).2 := by
  have answered : step acc s = (.yield acc', (step acc s).2) := Prod.ext found rfl
  rw [repeatWithin, run_bind answered]

variable (fit : ∀ acc s, s.Fit text → (step acc s).2.Fit text)
  (passes : ∀ acc s, s.Fit text → ∀ acc', (step acc s).1 = .yield acc' →
    (step acc s).2.lexer.first.rest.length < s.lexer.first.rest.length)

include fit passes

/-- Bounds that are no less than what is left of the text are all alike. -/
theorem repeatWithin_congr {bound bound' : List Char} (h : s.Fit text)
    (enough : s.lexer.first.rest.length ≤ bound.length)
    (enough' : s.lexer.first.rest.length ≤ bound'.length) :
    repeatWithin step bound acc s = repeatWithin step bound' acc s := by
  induction bound generalizing bound' acc s with
  | nil =>
    cases found : (step acc s).1 with
    | done acc' => rw [repeatWithin_done found, repeatWithin_done found]
    | yield acc' =>
      have shorter := passes acc s h acc' found
      simp only [List.length_nil] at enough
      omega
  | cons c bound ih =>
    cases found : (step acc s).1 with
    | done acc' => rw [repeatWithin_done found, repeatWithin_done found]
    | yield acc' =>
      have shorter := passes acc s h acc' found
      cases bound' with
      | nil =>
        simp only [List.length_nil] at enough'
        omega
      | cons c' bound' =>
        simp only [List.length_cons] at enough enough'
        rw [repeatWithin_yield found, repeatWithin_yield found]
        exact ih (fit acc s h) (by omega) (by omega)

theorem advances_of_passes : Advances text step := by
  refine ⟨fit, passes, fun acc s h => ?_⟩
  cases found : (step acc s).1 with
  | done acc' =>
    have answered : step acc s = (.done acc', (step acc s).2) := Prod.ext found rfl
    rw [run_bind answered]
    exact repeatWithin_done found _
  | yield acc' =>
    have answered : step acc s = (.yield acc', (step acc s).2) := Prod.ext found rfl
    have shorter := passes acc s h acc' found
    rw [run_bind answered]
    change repeatWithin step s.lexer.first.rest acc s = repeatWithin step _ acc' (step acc s).2
    cases left : s.lexer.first.rest with
    | nil =>
      rw [left] at shorter
      cases shorter
    | cons c rest =>
      rw [repeatWithin_yield found]
      rw [left] at shorter
      exact repeatWithin_congr fit passes (fit acc s h) (Nat.le_of_lt_succ shorter) (Nat.le_refl _)

end

theorem Advances.ends {step : σ → Parser (ForInStep σ)} (h : Advances text step) (acc : σ)
    (fit : s.Fit text) : ∃ acc₀ s₀, s₀.Fit text ∧
      step acc₀ s₀ = (.done (repeating step acc s).1, (repeating step acc s).2) := by
  generalize left : s.lexer.first.rest.length = n
  induction n using Nat.strongRecOn generalizing acc s with
  | ind n ih =>
    rw [h.repeats acc s fit]
    cases found : (step acc s).1 with
    | done acc' =>
      have answered : step acc s = (.done acc', (step acc s).2) := Prod.ext found rfl
      rw [run_bind answered]
      exact ⟨acc, s, fit, answered⟩
    | yield acc' =>
      have answered : step acc s = (.yield acc', (step acc s).2) := Prod.ext found rfl
      rw [run_bind answered]
      exact ih _ (left ▸ h.passes acc s fit acc' found) acc' (h.fit acc s fit) rfl

/-! ### Looking ahead -/

theorem skipGroupWithin_ended (ended : s.lexer.kind = .endOfFile) (bound : List Char)
    (opened : List Opening) : skipGroupWithin bound opened s = (false, s) := by
  cases bound with
  | nil => rfl
  | cons c bound =>
    have kind : Parser.kind s = (.endOfFile, s) := by rw [← ended]; rfl
    unfold skipGroupWithin
    rw [run_bind kind]
    rfl

/-- Bounds that are alike behind the current token are alike at it. -/
theorem skipGroupWithin_step {bound bound' : List Char} {opened : List Opening}
    (sits : s.lexer.Sits text) (notEnd : s.lexer.kind ≠ .endOfFile)
    (later : ∀ l : Lexer, l.Sits text → l.first.rest.length < s.lexer.first.rest.length →
      ∀ opened, skipGroupWithin bound opened { s with lexer := l } =
        skipGroupWithin bound' opened { s with lexer := l })
    (c c' : Char) : skipGroupWithin (c :: bound) opened s = skipGroupWithin (c' :: bound') opened s := by
  -- behind a token, in any reading of it, less of the text is left
  have onward (l : Lexer) (there : l.Sits text) (same : l.first = s.lexer.first)
      (some_ : l.kind ≠ .endOfFile) (opened : List Opening) :
      skipGroupWithin bound opened { s with lexer := l.scan } =
        skipGroupWithin bound' opened { s with lexer := l.scan } := by
    have shorter := (there.more some_).length_lt
    have behind := there.scan.2.length_le
    rw [same] at shorter
    exact later l.scan there.scan.1 (by omega) opened
  have next (opened : List Opening) :
      (skip >>= fun _ => skipGroupWithin bound opened) s =
        (skip >>= fun _ => skipGroupWithin bound' opened) s :=
    onward s.lexer sits rfl notEnd opened
  have kind : Parser.kind s = (s.lexer.kind, s) := rfl
  unfold skipGroupWithin
  rw [run_bind kind, run_bind kind]
  generalize found : s.lexer.kind = k
  split
  · rfl
  · exact next _
  · exact next _
  · exact next _
  · exact next _
  · split
    · rfl
    · exact next _
    · rfl
  · split
    · exact next _
    · rfl
  · split
    · exact onward _ (sits.rescanTemplate found) rfl (fun ended => TokenKind.noConfusion ended) _
    · exact next _
    · rfl
  · exact next _

theorem skipGroupWithin_congr {bound bound' : List Char} {opened : List Opening}
    (sits : s.lexer.Sits text) (enough : s.lexer.first.rest.length ≤ bound.length)
    (enough' : s.lexer.first.rest.length ≤ bound'.length) :
    skipGroupWithin bound opened s = skipGroupWithin bound' opened s := by
  induction bound generalizing bound' opened s with
  | nil =>
    have ended : s.lexer.kind = .endOfFile := by
      by_contra notEnd
      have more := (sits.more notEnd).length_lt
      simp only [List.length_nil] at enough
      omega
    rw [skipGroupWithin_ended ended, skipGroupWithin_ended ended]
  | cons c bound ih =>
    by_cases ended : s.lexer.kind = .endOfFile
    · rw [skipGroupWithin_ended ended, skipGroupWithin_ended ended]
    have more := (sits.more ended).length_lt
    cases bound' with
    | nil =>
      simp only [List.length_nil] at enough'
      omega
    | cons c' bound' =>
      simp only [List.length_cons] at enough enough'
      refine skipGroupWithin_step sits ended (fun l there shorter opened => ?_) c c'
      exact ih there (by dsimp only; omega) (by dsimp only; omega)

/-! ### Steps that build on an answer so far -/

/-- Whether two parsers differ in no more than the tree, and their answers are related. -/
def Alike (R : α → α → Prop) (act act' : Parser α) : Prop :=
  ∀ s, R (act s).1 (act' s).1 ∧ ∃ t : Tree, t.pools.size = (act' s).2.tree.pools.size ∧
    (act s).2 = { (act' s).2 with tree := t }

def GoesOn (answer answer' : ForInStep σ) : Prop :=
  ∀ acc, answer = .yield acc → ∃ acc', answer' = .yield acc'

namespace Alike

variable {R : β → β → Prop}

theorem refl (act : Parser (ForInStep σ)) : Alike GoesOn act act :=
  fun s => ⟨fun acc found => ⟨acc, found⟩, (act s).2.tree, rfl, rfl⟩

theorem pure {a a' : β} (h : R a a') : Alike R (Pure.pure a) (Pure.pure a') :=
  fun s => ⟨h, s.tree, rfl, rfl⟩

theorem bind {act : Parser α} {next next' : α → Parser β} (h : ∀ a, Alike R (next a) (next' a)) :
    Alike R (act >>= next) (act >>= next') := fun s => h (act s).1 (act s).2

theorem ite {c : Prop} [Decidable c] {yes no yes' no' : Parser β} (h : Alike R yes yes')
    (h' : Alike R no no') : Alike R (if c then yes else no) (if c then yes' else no') := by
  split
  · exact h
  · exact h'

theorem yield {act act' : Parser Child} {f f' : Child → σ} (h : Alike (fun _ _ => True) act act') :
    Alike GoesOn (act >>= fun node => Pure.pure (.yield (f node)))
      (act' >>= fun node => Pure.pure (.yield (f' node))) :=
  fun s => ⟨fun _ _ => ⟨_, rfl⟩, (h s).2⟩

theorem addFlagged {k : NodeKind} {flags start : Nat} {r r' : Record} :
    Alike (fun _ _ => True) (Parser.addFlagged k flags start r) (Parser.addFlagged k flags start r') := by
  intro s
  refine ⟨trivial, (s.tree.add k flags start s.previousEnd r).2, ?_, rfl⟩
  change (s.tree.add k flags start s.previousEnd r).2.pools.size =
    (s.tree.add k flags start s.previousEnd r').2.pools.size
  rw [Tree.add_pools, Tree.add_pools, Array.size_modify, Array.size_modify]

end Alike

theorem advances_of_alike {step : σ → Parser (ForInStep σ)} {I : Room → σ → List Known} (blank : σ → σ)
    (alike : ∀ acc, Alike GoesOn (step acc) (step (blank acc))) (empty : ∀ x acc, Covers [] (I x (blank acc)))
    (runs : ∀ (x : Room) (acc : σ) (n : Nat),
      Runs x true (.since n false :: I x acc) (step acc) (step acc) (stepped (I x) n)) :
    Advances text step := by
  have once (acc : σ) (s : ParserState) (fit : s.Fit text) : (step (blank acc) s).2.Fit text ∧
      ∀ acc', (step (blank acc) s).1 = .yield acc' →
        (step (blank acc) s).2.lexer.first.rest.length < s.lexer.first.rest.length := by
    have known (x : Room) :
        ∀ p ∈ Known.since s.lexer.first.rest.length false :: I x (blank acc), p.Holds s := by
      rintro p (_ | ⟨_, hp⟩)
      · exact Nat.le_refl _
      · exact (empty x acc).holds nofun p hp
    obtain ⟨-, returns, holds⟩ := runs _ (blank acc) _ s (begins_of_fit fit true (known _)) trivial
    refine ⟨fit.returns returns, fun acc' found => ?_⟩
    rw [found] at holds
    exact holds _ (List.mem_cons_self ..)
  refine advances_of_passes (fun acc s fit => ?_) fun acc s fit acc' found => ?_
  · obtain ⟨-, t, pools, same⟩ := alike acc s
    have ⟨⟨footing, pools'⟩, depth⟩ := (once acc s fit).1
    rw [same]
    exact ⟨⟨⟨footing.sits, footing.boundary, footing.behind, footing.noted⟩, pools.trans pools'⟩, depth⟩
  · obtain ⟨goesOn, t, -, same⟩ := alike acc s
    obtain ⟨acc'', found'⟩ := goesOn acc' found
    rw [same]
    exact (once acc s fit).2 acc'' found'

theorem advances_of_runs {step : σ → Parser (ForInStep σ)}
    (runs : ∀ (x : Room) (acc : σ) (n : Nat),
      Runs x true [.since n false] (step acc) (step acc) (stepped (fun _ => []) n)) :
    Advances text step :=
  advances_of_alike (I := fun _ _ => []) id (fun _ => .refl _) (fun _ _ => .nil) runs

/-! ### The loops of the grammar -/

section

variable (sub : PhraseParser) (start : Nat)

theorem alike_linkStep (allowCalls : Bool) (acc : Child × Bool) :
    Alike GoesOn (linkStep sub start allowCalls acc) (linkStep sub start allowCalls (none, acc.2)) := by
  obtain ⟨object, chained⟩ := acc
  -- every kind of link looks at its object only when it adds its node
  have access (flags : Nat) (questionDot : Bool) : Alike (fun _ _ => True)
      (propertyAccess flags start object questionDot) (propertyAccess flags start none questionDot) :=
    .bind fun _ => .addFlagged
  have element (flags : Nat) (questionDot : Bool) : Alike (fun _ _ => True)
      (elementAccess sub flags start object questionDot)
      (elementAccess sub flags start none questionDot) :=
    .bind fun _ => .bind fun _ => .bind fun _ => .addFlagged
  have called (flags : Nat) : Alike (fun _ _ => True) (call sub flags start object)
      (call sub flags start none) := .bind fun _ => .addFlagged
  have tagged (flags : Nat) : Alike (fun _ _ => True) (taggedTemplate sub chained flags start object)
      (taggedTemplate sub chained flags start none) :=
    .ite (.bind fun _ => .bind fun _ => .addFlagged) (.bind fun _ => .addFlagged)
  have optional : Alike (fun _ _ => True) (optionalLink sub start object)
      (optionalLink sub start none) := by
    refine .bind fun k => ?_
    split
    · exact element _ _
    · exact called _
    · exact access _ _
  refine .bind fun k => ?_
  split
  · exact .bind fun _ => .yield (access _ _)
  · exact .yield (element _ _)
  · exact .ite (.yield (called _)) (.pure nofun)
  · exact .ite (.bind fun _ => .yield optional) (.pure nofun)
  · exact .yield (tagged _)
  · exact .yield (tagged _)
  · exact .pure nofun

theorem alike_operatorStep (least : Nat) (left : Child) :
    Alike GoesOn (operatorStep sub start least left) (operatorStep sub start least none) := by
  refine .bind fun operator => .bind fun c => .ite (.pure nofun) (.bind fun _ => .bind fun right => ?_)
  exact .ite (.bind fun _ => .yield .addFlagged) (.yield .addFlagged)

theorem alike_commaStep (left : Child) :
    Alike GoesOn (commaStep sub start left) (commaStep sub start none) :=
  .bind fun _ => .ite (.bind fun _ => .yield .addFlagged) (.pure nofun)

end

structure LoopsAdvance (text : List Char) : Prop where
  statements (isEnd : TokenKind → Bool) : Advances text (statementStep unbounded isEnd)
  clauses : Advances text (clauseStep unbounded)
  members : Advances text (memberStep unbounded)
  elements : Advances text (arrayStep unbounded)
  objectMembers : Advances text (objectMemberStep unbounded)
  objectPatterns : Advances text (objectElementStep unbounded)
  arrayPatterns : Advances text (arrayElementStep unbounded)
  parameters : Advances text (parameterStep unbounded)
  arguments : Advances text (argumentStep unbounded)
  importSpecifiers : Advances text (specifierStep .importSpecifier)
  exportSpecifiers : Advances text (specifierStep .exportSpecifier)
  templateSpans : Advances text (templateSpanStep unbounded)
  declarations : Advances text (declarationStep unbounded)
  links (start : Nat) (allowCalls : Bool) : Advances text (linkStep unbounded start allowCalls)
  operators (start least : Nat) : Advances text (operatorStep unbounded start least)
  commas (start : Nat) : Advances text (commaStep unbounded start)

theorem loopsAdvance (text : List Char) : LoopsAdvance text where
  statements isEnd := advances_of_runs fun x => runs_statementStep (tied_unbounded x) isEnd
  clauses := advances_of_runs fun x => runs_clauseStep (tied_unbounded x)
  members := advances_of_runs fun x => runs_memberStep (tied_unbounded x)
  elements := advances_of_runs fun x => runs_arrayStep (tied_unbounded x)
  objectMembers := advances_of_runs fun x => runs_objectMemberStep (tied_unbounded x)
  objectPatterns := advances_of_runs fun x => runs_objectElementStep (tied_unbounded x)
  arrayPatterns := advances_of_runs fun x => runs_arrayElementStep (tied_unbounded x)
  parameters := advances_of_runs fun x => runs_parameterStep (tied_unbounded x)
  arguments := advances_of_runs fun x => runs_argumentStep (tied_unbounded x)
  importSpecifiers := advances_of_runs fun _ => runs_specifierStep rfl
  exportSpecifiers := advances_of_runs fun _ => runs_specifierStep rfl
  templateSpans := advances_of_runs fun x => runs_templateSpanStep (tied_unbounded x)
  declarations := advances_of_runs fun x => runs_declarationStep (tied_unbounded x)
  links start allowCalls := advances_of_alike (I := fun x acc => linkable x acc.1) (fun acc => (none, acc.2))
    (alike_linkStep unbounded start allowCalls) (fun _ _ => .one (gives_none _ _))
    fun x => runs_linkStep (tied_unbounded x) allowCalls
  operators start least := advances_of_alike
    (I := fun x left => [.low left (11 - least) (2 * x.levels)]) (fun _ => none)
    (alike_operatorStep unbounded start least) (fun _ _ => .one (gives_none _ _))
    fun x => runs_operatorStep (tied_unbounded x) least
  commas start := advances_of_alike
    (I := fun x left => [.low left (x.levels + 12) (2 * x.levels - 1)]) (fun _ => none)
    (alike_commaStep unbounded start) (fun _ _ => .one (gives_none _ _))
    fun x => runs_commaStep (tied_unbounded x) start

end Parser

end PathGuard
