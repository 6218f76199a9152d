import PathGuard.Proofs.Grammar.Parsed
import PathGuard.Proofs.Run.Loop
import PathGuard.Rule.Source
/-!
# How texts are parsed

The parsing of every text comes to its end with what every move keeps.
-/

namespace PathGuard

namespace Parser

open Known ParserState

variable {text : List Char}

/-! ### Before the statements -/

def firstState (text : List Char) : ParserState := (advance (.start text)).2

theorem standing_readNext (text : List Char) : (ParserState.start text).readNext.Standing text where
  footing := {
    sits := (Lexer.sits_scan (l := Lexer.start text true) rfl rfl (.refl _)).1
    boundary := ⟨[], List.nil_prefix, rfl⟩
    behind := Nat.zero_le _
    noted := fun noted => absurd rfl noted }
  pools := Tree.empty_sound.pools

theorem fit_firstState (text : List Char) : (firstState text).Fit text := by
  have read := standing_readNext text
  have footing : (behindToken (.start text)).Footing text :=
    ⟨read.footing.sits, read.footing.boundary, read.footing.behind, read.footing.noted⟩
  have onward := (advance_onward footing).1
  exact ⟨⟨onward.footing, onward.tree ▸ read.pools⟩, onward.depth ▸ Nat.zero_le _⟩

theorem regular_firstState (text : List Char) : (firstState text).Regular text := by
  have read := standing_readNext text
  have ordered : (ParserState.start text).Ordered text :=
    ⟨.nil, rfl, List.forall_mem_nil _, List.forall_mem_nil _⟩
  have attentive : (ParserState.start text).Attentive := List.forall_mem_nil _
  have tree : (firstState text).tree = .empty := (Idle.moving.advance (.start text)).1
  have inner : Inner .empty := by
    intro i n hn
    simp [Tree.empty] at hn
  refine {
    ordered := ?_
    attentive := ?_
    inner := tree ▸ inner
    shallow := tree ▸ Tree.shallow_empty }
  · have kept : (ParserState.start text).readNext.Ordered text := ordered.ahead rfl rfl (Nat.zero_le _)
    rw [firstState, run_advance]
    exact kept.noteToken read
  · rw [firstState, run_advance]
    exact attentive.readNext (ordered.ahead rfl rfl (Nat.zero_le _)) rfl read.footing

/-! ### The statements -/

def programBy (sub : PhraseParser) (fileName : String) (text : List Char) : Parser Child := do
  advance
  let statements ← statementList sub fun _ => false
  let stop := byteLength text
  let endOfFile ← addToken (.token .endOfFile) stop stop
  addSpanned .sourceFile 0 stop (.sourceFile statements endOfFile fileName)

/-- The statements of a text, and the state behind them. -/
def statementsOf (text : List Char) : NodeList × ParserState :=
  statementList unbounded (fun _ => false) (firstState text)

/-- The tree of a text: what its statements made, the end of the text, and the text itself. -/
def treeOf (fileName : String) (text : List Char) : Tree :=
  let t := (statementsOf text).2.tree.addToken (.token .endOfFile) (byteLength text) (byteLength text)
  (t.2.add .sourceFile 0 0 (byteLength text)
    (.sourceFile (statementsOf text).1 (some t.1) fileName)).2

theorem run_programBy (fileName : String) (text : List Char) :
    (programBy unbounded fileName text (.start text)).2 =
      { (statementsOf text).2 with tree := treeOf fileName text } := by
  have first : advance (.start text) = ((), firstState text) := rfl
  have statements : statementList unbounded (fun _ => false) (firstState text) = statementsOf text := rfl
  rw [programBy, run_bind first, run_bind statements]
  rfl

theorem programBy_congr {sub sub' : PhraseParser} (fileName : String)
    (same : statementList sub (fun _ => false) (firstState text) =
      statementList sub' (fun _ => false) (firstState text)) :
    programBy sub fileName text (.start text) = programBy sub' fileName text (.start text) := by
  have first : advance (.start text) = ((), firstState text) := rfl
  cases found : statementList sub' (fun _ => false) (firstState text) with
  | mk statements s =>
    rw [found] at same
    rw [programBy, programBy, run_bind first, run_bind first, run_bind same, run_bind found]

theorem begins_firstState (text : List Char) {fuel : Nat} (enough : text.length + maxDepth + 1 ≤ fuel) :
    Begins ⟨text, fuel, 0⟩ true [] (firstState text) where
  standing := (fit_firstState text).standing
  depth := (Idle.moving.advance (.start text)).2
  deep := Nat.zero_le _
  enough := by
    have left : (firstState text).lexer.first.rest.length ≤ text.length :=
      (fit_firstState text).standing.footing.sits.first.length_le
    change _ + (maxDepth - 0) + 1 ≤ fuel
    omega
  holds := nofun

theorem runs_statementsOf (stuck : PhraseParser) {fuel : Nat}
    (enough : text.length + maxDepth + 1 ≤ fuel) :
    statementList (phraseFrom stuck fuel) (fun _ => false) (firstState text) = statementsOf text ∧
      Returns (firstState text) (statementsOf text).2 := by
  have tied := tied_unbounded_phraseFrom stuck (x := ⟨text, fuel, 0⟩) (Nat.le_refl _)
  have runs : Runs _ true [] _ _ _ := runs_statementList tied fun _ => false
  obtain ⟨same, returns, -⟩ := runs _ (begins_firstState text enough) trivial
  exact ⟨same, returns⟩

theorem statementStep_done {sub : PhraseParser} {isEnd : TokenKind → Bool} {acc acc' : List Child}
    {s s' : ParserState} (done : statementStep sub isEnd acc s = (.done acc', s')) :
    s' = s ∧ (s.lexer.kind = .endOfFile ∨ isEnd s.lexer.kind = true) := by
  have kind : Parser.kind s = (s.lexer.kind, s) := rfl
  by_cases ends : (decide (s.lexer.kind = .endOfFile) || isEnd s.lexer.kind) = true
  · rw [statementStep, run_bind kind, if_pos ends] at done
    cases done
    simpa using ends
  · have goesOn : ∃ acc', (statementStep sub isEnd acc s).1 = .yield acc' := by
      rw [statementStep, run_bind kind, if_neg ends]
      refine Ends.bind (R := fun r => ∃ acc', r.1 = ForInStep.yield acc') (fun start => .bind fun statement =>
        .bind fun k' => .bind fun start' => ?_) s
      extract_lets join
      split
      · exact .bind fun _ => .bind fun _ => fun s => ⟨_, rfl⟩
      · exact fun s => ⟨_, rfl⟩
    obtain ⟨_, yields⟩ := goesOn
    rw [done] at yields
    cases yields

theorem ended_statementsOf (text : List Char) : (statementsOf text).2.lexer.kind = .endOfFile := by
  obtain ⟨acc, s, -, done⟩ :=
    ((loopsAdvance text).statements fun _ => false).ends [] (fit_firstState text)
  obtain ⟨same, ended | never⟩ := statementStep_done done
  · rw [← same] at ended
    exact ended
  · cases never

/-! ### The whole text -/

theorem programBy_phraseFrom (stuck : PhraseParser) (fileName : String) {fuel : Nat}
    (enough : text.length + maxDepth + 1 ≤ fuel) :
    programBy (phraseFrom stuck fuel) fileName text (.start text) =
      programBy unbounded fileName text (.start text) :=
  programBy_congr fileName (runs_statementsOf stuck enough).1

theorem program_eq (fileName : String) (text : List Char) :
    program fileName text (.start text) = programBy unbounded fileName text (.start text) := by
  have enough : text.length + maxDepth + 1 ≤ text.length + maxDepth + 2 := Nat.le_succ _
  rw [← programBy_phraseFrom (fun _ => return none) fileName enough, ← phrase_eq_phraseFrom]
  rfl

def lastState (fileName : String) (text : List Char) : ParserState :=
  (program fileName text (.start text)).2

theorem lastState_eq (fileName : String) (text : List Char) :
    lastState fileName text = { (statementsOf text).2 with tree := treeOf fileName text } := by
  rw [lastState, program_eq, run_programBy]

theorem regular_statementsOf (text : List Char) : (statementsOf text).2.Regular text :=
  (regular_firstState text).moves (fit_firstState text).standing
    (runs_statementsOf (fun _ => return none) (Nat.le_refl _)).2.moves

theorem standing_statementsOf (text : List Char) : (statementsOf text).2.Standing text :=
  ((runs_statementsOf (fun _ => return none) (Nat.le_refl _)).2.moves.forward
    (fit_firstState text).standing).standing

/-- The tree of a text without the node of the text itself. -/
def innerTreeOf (text : List Char) : Tree :=
  ((statementsOf text).2.tree.addToken (.token .endOfFile) (byteLength text) (byteLength text)).2

theorem shallow_treeOf (fileName : String) (text : List Char) : (treeOf fileName text).Shallow := by
  have shallow := (regular_statementsOf text).shallow.addToken (k := .token .endOfFile) rfl
    (byteLength text) (byteLength text)
  refine shallow.add (standing_statementsOf text).pools (fun d joined => ?_) _ _ _
  cases joined

theorem eq_last_of_treeOf {fileName : String} {text : List Char} {i : NodeId} {n : Node}
    (hn : (treeOf fileName text).nodes[i]? = some n) (whole : n.kind = .sourceFile) :
    (treeOf fileName text).size = i + 1 := by
  have inner := (regular_statementsOf text).inner.addToken (k := .token .endOfFile) rfl
    (byteLength text) (byteLength text)
  have size := Tree.add_size (innerTreeOf text) .sourceFile 0 0 (byteLength text)
    (.sourceFile (statementsOf text).1 (some (statementsOf text).2.tree.size) fileName)
  have last : i = (innerTreeOf text).size := inner.eq_size (Tree.add_extends ..) size hn whole
  rw [last]
  exact size

end Parser

open PathGuard.Parser

theorem parseFile_problems (fileName source : String) :
    (parseFile fileName source).problems = (statementsOf source.toList).2.problems.reverse := by
  change (lastState fileName source.toList).problems.reverse = _
  rw [lastState_eq]

theorem parseFile_tree (fileName source : String) :
    (parseFile fileName source).tree = treeOf fileName source.toList := by
  change (lastState fileName source.toList).tree = _
  rw [lastState_eq]

theorem checkSource_of_problems {options : Options} (active : options.protectedPaths.isEmpty = false)
    {file source : String} {p : Problem} {ps : List Problem}
    (noted : (parseFile file source).problems = p :: ps) :
    checkSource options file source = some (p.diagnostic file) := by
  rw [checkSource, checkText, active, if_neg Bool.false_ne_true]
  dsimp only
  rw [noted]

/-! ### Problems -/

/-- Whether the problems of a text are in order: each begins before the next one, all of them begin
and end at characters of the text, and the answer to a check is the one that begins first. -/
structure ProblemsInOrder (fileName source : String) : Prop where
  sorted : (parseFile fileName source).problems.Pairwise fun p q => p.start < q.start
  boundary : ∀ p ∈ (parseFile fileName source).problems,
    IsBoundary source.toList p.start ∧ IsBoundary source.toList (p.start + p.length)
  within : ∀ p ∈ (parseFile fileName source).problems,
    p.start ≤ byteLength source.toList ∧ p.start + p.length ≤ byteLength source.toList
  reported : ∀ options : Options, options.protectedPaths.isEmpty = false →
    (parseFile fileName source).problems ≠ [] →
      ∃ p ∈ (parseFile fileName source).problems,
        checkSource options fileName source = some (p.diagnostic fileName) ∧
          ∀ q ∈ (parseFile fileName source).problems, q ≠ p → p.start < q.start

/-- The problems of every text are in order. -/
theorem parseFile_problemsInOrder (fileName source : String) : ProblemsInOrder fileName source := by
  have ordered := (regular_statementsOf source.toList).ordered
  have sorted : (parseFile fileName source).problems.Pairwise fun p q => p.start < q.start := by
    rw [parseFile_problems]
    exact List.pairwise_reverse.2 ordered.sorted
  have boundary : ∀ p ∈ (parseFile fileName source).problems,
      IsBoundary source.toList p.start ∧ IsBoundary source.toList (p.start + p.length) := by
    intro p hp
    rw [parseFile_problems, List.mem_reverse] at hp
    exact ordered.placed p hp
  refine ⟨sorted, boundary, fun p hp => ?_, fun options active wrong => ?_⟩
  · obtain ⟨start, stop⟩ := boundary p hp
    exact ⟨start.le, stop.le⟩
  · obtain ⟨p, ps, noted⟩ := List.exists_cons_of_ne_nil wrong
    rw [noted] at sorted
    refine ⟨p, noted ▸ List.mem_cons_self .., checkSource_of_problems active noted, fun q hq other => ?_⟩
    rw [noted] at hq
    exact (List.pairwise_cons.1 sorted).1 q (List.mem_of_ne_of_mem other hq)

/-- An open call with an open string in it: of four problems, the one of the string is the answer. -/
theorem parseFile_problemsInOrder_call :
    (parseFile "call.ts" "f(\n\"a\nb + ; ]").problems.map Problem.start = [3, 6, 10, 12] ∧
      ∃ p ∈ (parseFile "call.ts" "f(\n\"a\nb + ; ]").problems,
        checkSource ⟨some ["a"]⟩ "call.ts" "f(\n\"a\nb + ; ]" = some (p.diagnostic "call.ts") ∧
          ∀ q ∈ (parseFile "call.ts" "f(\n\"a\nb + ; ]").problems, q ≠ p → p.start < q.start := by
  have starts : (parseFile "call.ts" "f(\n\"a\nb + ; ]").problems.map Problem.start = [3, 6, 10, 12] := by
    decide +kernel
  have active : (Options.protectedPaths ⟨some ["a"]⟩).isEmpty = false := by decide
  have wrong : (parseFile "call.ts" "f(\n\"a\nb + ; ]").problems ≠ [] := by decide +kernel
  exact ⟨starts, (parseFile_problemsInOrder "call.ts" _).reported _ active wrong⟩

/-- A token that misses its end is noted: unless it is a name, or the end behind an open comment, it is
a literal, a problem was found where it begins, and so the text is not clean. -/
theorem parseFile_notes_unterminated (fileName source : String) (l : Lexer)
    (read : l ∈ (lastState fileName source.toList).readings) (missing : l.flags.unterminated = true)
    (shown : l.kind ≠ .endOfFile ∧ l.kind.isName = false) :
    (∃ k, l.kind = .literal k) ∧
      (∃ p ∈ (parseFile fileName source).problems, p.start = l.first.offset) ∧
      ∀ options : Options, options.protectedPaths.isEmpty = false →
        (checkSource options fileName source).isSome = true := by
  rw [lastState_eq] at read
  have noticed := (regular_statementsOf source.toList).attentive l read missing
  rcases noticed with ⟨literal, p, hp, there⟩ | ends | name
  · have found : p ∈ (parseFile fileName source).problems := by
      rw [parseFile_problems]
      exact List.mem_reverse.2 hp
    refine ⟨literal, ⟨p, found, there⟩, fun options active => ?_⟩
    obtain ⟨q, qs, noted⟩ := List.exists_cons_of_ne_nil (List.ne_nil_of_mem found)
    rw [checkSource_of_problems active noted]
    rfl
  · exact absurd ends shown.1
  · rw [shown.2] at name
    cases name

theorem parseFile_notes_unterminated_string :
    ∃ l ∈ (lastState "open.ts" "\"b".toList).readings, l.flags.unterminated = true ∧
      (∃ k, l.kind = .literal k) ∧
        ∃ p ∈ (parseFile "open.ts" "\"b").problems, p.start = l.first.offset := by
  have missing : ∃ l ∈ (lastState "open.ts" "\"b".toList).readings, l.flags.unterminated = true ∧
      l.kind ≠ .endOfFile ∧ l.kind.isName = false := by
    decide +kernel
  obtain ⟨l, read, missing, shown⟩ := missing
  obtain ⟨literal, noted, -⟩ := parseFile_notes_unterminated "open.ts" _ l read missing shown
  exact ⟨l, read, missing, literal, noted⟩

-- An open comment, and a name with an open brace, miss their ends and are not noted.
example : (parseFile "open.ts" "/* a").problems = [] := by decide +kernel

example : (parseFile "open.ts" "class A\\u\x7b m() \x7b\x7d \x7d").problems = [] := by decide +kernel

/-! ### Nesting -/

/-- No chain of nested constructs is longer than twice the depth of nesting, in the tree of any text,
except those that a guard does not count: powers and classes that extend classes. -/
theorem parseFile_chain_length_le (fileName source : String) (d : Descent) (is : List Nat)
    (chain : (parseFile fileName source).tree.Chain d is) : is.length ≤ 2 * maxDepth := by
  rw [parseFile_tree] at chain
  exact (shallow_treeOf fileName source.toList).length_le chain

theorem parseFile_chain_length_le_parentheses :
    (parseFile "nested.ts" "((a))").tree.Chain .inner [2, 1] ∧ [2, 1].length ≤ 2 * maxDepth := by
  have chain : (parseFile "nested.ts" "((a))").tree.Chain .inner [2, 1] := by decide +kernel
  exact ⟨chain, parseFile_chain_length_le "nested.ts" "((a))" .inner [2, 1] chain⟩

/-! ### The end -/

/-- Whether the parsing of a text comes to its end. A step of a loop that goes on passes a token; every
phrase is what its rule makes of it, so neither the bounds of the loops nor the fuel that the parser is
given changes what is parsed; and behind it the text is at its end, and the tree holds one whole text,
its root. -/
structure Finishes (fileName source : String) : Prop where
  loops : LoopsAdvance source.toList
  phrases : ∀ (p : Phrase) (s : ParserState), s.Fit source.toList → p.begins s.lexer →
    unbounded p s = rule unbounded p s ∧ (unbounded p s).2.Fit source.toList
  groups : ∀ (s : ParserState), s.Fit source.toList → ∀ (opened : List Opening) (bound : List Char),
    s.lexer.first.rest.length ≤ bound.length →
      skipGroupWithin bound opened s = skipGroupWithin s.lexer.first.rest opened s
  begins : (firstState source.toList).Fit source.toList
  program : program fileName source.toList (.start source.toList) =
    programBy unbounded fileName source.toList (.start source.toList)
  fuel : ∀ (stuck : PhraseParser) (fuel : Nat), source.toList.length + maxDepth + 1 ≤ fuel →
    programBy (phraseFrom stuck fuel) fileName source.toList (.start source.toList) =
      programBy unbounded fileName source.toList (.start source.toList)
  ended : (lastState fileName source.toList).lexer.kind = .endOfFile
  root : ∃ root, (parseFile fileName source).root = some root ∧
    ∀ i, (∃ n, (parseFile fileName source).tree.nodes[i]? = some n ∧ n.kind = .sourceFile) ↔ i = root

/-- The parsing of every text comes to its end. -/
theorem parseFile_finishes (fileName source : String) : Finishes fileName source where
  loops := loopsAdvance source.toList
  phrases _ _ fit here := unbounded_of_fit fit here
  groups _ fit _ _ enough := skipGroupWithin_congr fit.standing.footing.sits enough (Nat.le_refl _)
  begins := fit_firstState source.toList
  program := program_eq fileName source.toList
  fuel stuck _ enough := programBy_phraseFrom stuck fileName enough
  ended := by
    rw [lastState_eq]
    exact ended_statementsOf source.toList
  root := by
    obtain ⟨root, n, isRoot, size, hn, kind, -⟩ := parseFile_root fileName source
    refine ⟨root, isRoot, fun i => ⟨fun ⟨m, hm, whole⟩ => ?_, ?_⟩⟩
    · rw [parseFile_tree] at hm size
      exact Nat.succ.inj ((eq_last_of_treeOf hm whole).symm.trans size)
    · rintro rfl
      exact ⟨n, hn, kind⟩

end PathGuard
