import PathGuard.Proofs.Grammar.Program
import PathGuard.Proofs.Rule.Chain
import PathGuard.Proofs.Scope.Lookup
import PathGuard.Rule.Source
/-!
# Checking texts of one statement

What is wrong with a text of one statement is the first violation in that statement. Of a chain this
is the violation of the whole chain.
-/

namespace PathGuard

namespace Tree

variable {t : Tree} {root i e start stop : Nat} {row : NodeList} {fileName : String}

theorem Is.file_parts (sound : t.Sound)
    (is : t.Is root .sourceFile start stop (.sourceFile row (some e) fileName))
    (nodes : row.nodes = [some i]) :
    t.children (some root) = [i, e] ∧ t.children (some e) = [] ∧
      t.kind? (some e) = some (.token .endOfFile) := by
  have children := is.children nofun
  rw [Record.parts, nodes] at children
  obtain ⟨n, hn, kind, -, -, construct⟩ := is.construct sound
  have role : (some e, (· == NodeKind.token .endOfFile)) ∈
      (Record.sourceFile row (some e) fileName).roles n.kind :=
    List.mem_append_right _ (List.mem_singleton_self _)
  obtain ⟨m, hm, ends⟩ := construct.part_kind role
  have last : m.kind = .token .endOfFile := eq_of_beq ends
  refine ⟨children, ?_, by rw [kind?_of_node hm, last]⟩
  have noRecord : t.record? m = none := by
    rw [record?, last]
    rfl
  unfold Tree.children
  simp only [node?_some, hm, noRecord]

theorem Is.file_onlyBelow (sound : t.Sound)
    (is : t.Is root .sourceFile start stop (.sourceFile row (some e) fileName))
    (nodes : row.nodes = [some i]) {names : List String} (only : t.OnlyBelow names i) :
    t.OnlyBelow names root := by
  obtain ⟨children, -, kind⟩ := is.file_parts sound nodes
  obtain ⟨n, hn, file, -⟩ := is
  refine onlyBelow_of_parts (silent_of_kind hn (by rw [file]; rfl)).declaresOnly fun c part => ?_
  rw [children] at part
  rcases List.mem_cons.1 part with rfl | last
  · exact only
  · rw [List.mem_singleton.1 last]
    obtain ⟨m, hm, token⟩ := node_of_kind? kind
    exact (sound.silentBelow_of_bare hm (.inl (by rw [token]; rfl)) (by rw [token]; rfl)).onlyBelow

end Tree

theorem ParsedFile.firstViolation?_single {f : ParsedFile} (sound : f.tree.Sound)
    {root i e start stop : Nat} {row : NodeList} {fileName : String}
    (is : f.tree.Is root .sourceFile start stop (.sourceFile row (some e) fileName))
    (nodes : row.nodes = [some i]) {paths : ProtectedPaths} (some_ : paths.isEmpty = false) :
    (f.checker paths).firstViolation? (some root) =
      (f.tree.preorder i).findSome? (f.checker paths).checkNode? := by
  obtain ⟨children, noParts, kind⟩ := is.file_parts sound nodes
  obtain ⟨n, hn, fileKind, -⟩ := is
  have self : (f.checker paths).checkNode? root = none := by
    refine Checker.checkNode?_of_kind hn ?_ ?_
    · simp [Node.isAccess, fileKind]
    · rw [fileKind]
      decide
  have last : (f.tree.preorder e).findSome? (f.checker paths).checkNode? = none :=
    Checker.findSome?_token (c := f.checker paths) sound kind noParts
  have first := Checker.firstViolation?_eq (c := f.checker paths) sound some_
    (Tree.lt_size_of_node hn)
  have order : f.tree.preorder root = root :: (f.tree.preorder i ++ f.tree.preorder e) := by
    rw [sound.preorder_eq, children, List.flatMap_cons, List.flatMap_singleton]
  change _ = (f.tree.preorder root).findSome? _ at first
  rw [first, order, List.findSome?_cons, self, List.findSome?_append, last, Option.or_none]

theorem checkText_single {paths : ProtectedPaths} {file source : String} {root i e start stop : Nat}
    {row : NodeList} (clean : (parseFile file source).problems = [])
    (root_ : (parseFile file source).root = some root)
    (is : (parseFile file source).tree.Is root .sourceFile start stop
      (.sourceFile row (some e) file)) (nodes : row.nodes = [some i])
    (some_ : paths.isEmpty = false) :
    checkText paths file source =
      (((parseFile file source).tree.preorder i).findSome?
        ((parseFile file source).checker paths).checkNode?).map (·.diagnostic file) := by
  have first := ParsedFile.firstViolation?_single (parseFile_sound file source).tree is nodes some_
  rw [checkText, some_, if_neg Bool.false_ne_true]
  simp only [clean, root_, first]

/-! ### Chains as statements -/

theorem Tree.IsKey.silentBelow {t : Tree} (sound : t.Sound) {l : Link} {i : Nat}
    (key : t.IsKey i l) : t.SilentBelow i := by
  cases l with
  | name isOptional n =>
    obtain ⟨start, stop, m, hm, kind, -⟩ := key
    exact sound.silentBelow_of_bare hm (.inr (.inl (by rw [kind]; rfl))) (by rw [kind]; rfl)
  | key isOptional p =>
    obtain ⟨start, stop, raw, m, hm, kind, -⟩ := key
    exact sound.silentBelow_of_bare hm (.inr (.inr (by rw [kind]; rfl))) (by rw [kind]; rfl)

theorem Tree.Chained.silentBelow {t : Tree} (sound : t.Sound) {start i : Nat} {base : AsciiName}
    {links : List Link} (h : t.Chained start base links i) : t.SilentBelow i := by
  induction h with
  | base is =>
    obtain ⟨n, hn, kind, -⟩ := is
    exact sound.silentBelow_of_bare hn (.inr (.inl (by rw [kind]; rfl))) (by rw [kind]; rfl)
  | @link links l e i inner is ih =>
    obtain ⟨key, isKey, children⟩ := is.children
    obtain ⟨-, -, n, hn, kind, -⟩ := is
    refine silentBelow_of_parts (silent_of_kind hn (by rw [kind]; cases l <;> rfl)) fun c part => ?_
    rw [children] at part
    rcases List.mem_cons.1 part with rfl | last
    · exact ih
    · rw [List.mem_singleton.1 last]
      exact Tree.IsKey.silentBelow sound isKey

theorem Checker.findSome?_chainStatement {c : Checker} (sound : c.tree.Sound) {i e first last start : Nat}
    {base : AsciiName} {links : List Link} (chain : c.tree.Chained start base links e)
    (is : c.tree.Is i .expressionStatement first last (.expressionStatement (some e)))
    (free : ∀ place, c.resolver base.text place = .unbound) (short : links.length < maxPathNodes) :
    (c.tree.preorder i).findSome? c.checkNode? =
      Chain.violationOf? c.paths start base links := by
  have children : c.tree.children (some i) = [e] := is.children (by simp [Record.shape])
  obtain ⟨n, hn, kind, -, -, construct⟩ := is.construct sound
  have self : c.checkNode? i = none := by
    refine checkNode?_of_kind hn ?_ ?_
    · simp [Node.isAccess, kind]
    · rw [kind]
      decide
  have whole : c.tree.isDestructured (some e) = false := by
    refine Tree.isDestructured_of_other (construct.owns e (List.mem_singleton_self _)) hn ?_ ?_
    · rw [kind]
      decide
    · rw [construct.record]
      simp
  rw [sound.preorder_eq, children, List.flatMap_singleton, List.findSome?_cons, self]
  exact findSome?_chain sound chain free short whole

theorem ParsedFile.findSome?_chain {f : ParsedFile} (sound : f.tree.Sound) {root i e value : Nat}
    {row : NodeList} {fileName : String} {start stop last : Nat} {base : AsciiName}
    {links : List Link} (root_ : f.root = some root)
    (is : f.tree.Is root .sourceFile start stop (.sourceFile row (some e) fileName))
    (nodes : row.nodes = [some i]) (chain : f.tree.Chained start base links value)
    (statement : f.tree.Is i .expressionStatement start last (.expressionStatement (some value)))
    (short : links.length < maxPathNodes) (paths : ProtectedPaths) :
    (f.tree.preorder i).findSome? (f.checker paths).checkNode? =
      Chain.violationOf? paths start base links := by
  have only : f.tree.OnlyBelow [] i := by
    obtain ⟨n, hn, kind, -⟩ := id statement
    refine Tree.onlyBelow_of_parts (Tree.silent_of_kind hn (by rw [kind]; rfl)).declaresOnly ?_
    intro c part
    have children : f.tree.children (some i) = [value] := statement.children (by simp [Record.shape])
    rw [children, List.mem_singleton] at part
    exact part ▸ (chain.silentBelow sound).onlyBelow
  obtain ⟨n, hn, kind, -⟩ := id is
  have free (place : Child) : (f.checker paths).resolver base.text place = .unbound := by
    have undeclared : (Scopes.ofTree f.tree (some root)).resolver f.tree base.text place =
        .unbound :=
      Scopes.resolver_of_undeclared sound hn kind (is.file_onlyBelow sound nodes only)
        List.not_mem_nil place
    rw [← root_] at undeclared
    exact undeclared
  exact Checker.findSome?_chainStatement (c := f.checker paths) sound chain statement free short

theorem checkText_chain (paths : ProtectedPaths) (file : String) (chain : Chain)
    (short : chain.links.length < maxPathNodes) :
    checkText paths file (String.ofList (chain.chars ++ [';'])) =
      (Chain.violationOf? paths 0 chain.base chain.links).map (·.diagnostic file) := by
  cases some_ : paths.isEmpty with
  | true =>
    have nothing : Chain.violationOf? paths 0 chain.base chain.links = none := by
      rw [Chain.violationOf?, ProtectedPaths.match?_of_isEmpty some_]
      split <;> rfl
    rw [checkText, some_, if_pos rfl, nothing]
    rfl
  | false =>
    let ws := chain.links.flatMap Link.words ++ [markWord .semicolon false]
    have legible : Legible (chain.base.word false :: ws) :=
      chain.legible false ⟨legible_alone rfl false _, trivial⟩ (endsName_cons (by decide +kernel) _)
    have more : (chain.base.word false).kind ≠ .endOfFile := by
      change chain.base.kind ≠ _
      rw [chain.free.kind_eq]
      simp
    have text : spelled (chain.base.word false :: ws) = chain.chars ++ [';'] :=
      chain.spelled_statement
    have read (fuel : Nat) (c : Context) : Parser.Reads
        (Parser.phrase (fuel + 497 + 3) .statement) 0 (chain.words false ++ _) c 0 _ [] _ :=
      Parser.reads_chain_statement (by decide) chain
    have enough (fuel : Nat) : fuel + 497 + 3 = fuel + maxDepth := rfl
    simp only [enough] at read
    obtain ⟨clean, root, i, e, row, root_, nodes, is, value, chained, statement⟩ :=
      Parser.parseFile_single file legible more
        (fun _ _ _ ⟨e, chained, is⟩ grows => ⟨e, chained.of_extends grows, is.of_extends grows⟩) read
    rw [text] at clean root_ is chained statement
    have sound := (parseFile_sound file (String.ofList (chain.chars ++ [';']))).tree
    rw [checkText_single clean root_ is nodes some_]
    rw [ParsedFile.findSome?_chain sound root_ is nodes chained statement short paths]

/-- A chain of accesses as a text of its own is wrong when one of its links is written with `?.` and
a protected path covers it; then the whole chain is what shows it, and the longest such path is what
is named. -/
theorem checkSource_chain (o : Options) (file : String) (chain : Chain)
    (short : chain.links.length ≤ 999) :
    let found := checkSource o file (String.ofList (chain.chars ++ [';']))
    (found.isSome = true ↔ chain.isOptional = true ∧ ∃ p, o.Covers chain.text p) ∧
      ∀ d, found = some d → d.code = 9101 ∧ d.start = 0 ∧ d.length = byteLength chain.chars ∧
        ∃ p, o.CoversBest chain.text p ∧ d.arguments = [p] := by
  intro found
  have answer : found = _ := checkText_chain o.protectedPaths file chain (Nat.lt_succ_of_le short)
  have optional : chain.links.any Link.isOptional = chain.isOptional := rfl
  have text : Chain.textOf chain.base chain.links = chain.text := rfl
  rw [Chain.violationOf?, optional, text, Nat.zero_add] at answer
  constructor
  · rw [answer, Option.isSome_map, ← Options.match?_isSome]
    cases chain.isOptional <;> simp
  · intro d hd
    rw [answer, Option.map_eq_some_iff] at hd
    obtain ⟨v, hv, rfl⟩ := hd
    split at hv
    · obtain ⟨p, best, rfl⟩ := Option.map_eq_some_iff.1 hv
      exact ⟨rfl, rfl, rfl, p, Options.match?_eq_some.1 best, rfl⟩
    · cases hv

/-- In `a.if?.["b c"];` the path `a.if` protects the chain, and nothing but the last link is written
with `?.`. -/
theorem checkSource_chain_mixed :
    let chain : Chain := ⟨⟨'a', [], by decide, by simp⟩, by unfold AsciiName.IsFree; decide +kernel,
      [.name false ⟨'i', ['f'], by decide, List.all_eq_true.1 (by decide)⟩,
        .key true ⟨['b', ' ', 'c'], by simp⟩]⟩
    chain.links.length ≤ 999 ∧
      (checkSource ⟨some ["", "a.if"]⟩ "chain.ts" "a.if?.[\"b c\"];").isSome = true := by
  intro chain
  have few : chain.links.length ≤ 999 := by decide
  refine ⟨few, (checkSource_chain ⟨some ["", "a.if"]⟩ "chain.ts" chain few).1.2 ⟨rfl, "a.if", ?_⟩⟩
  exact ⟨⟨by decide, by decide⟩, .inr ⟨"b c", by decide⟩⟩

end PathGuard
