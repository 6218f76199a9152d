import PathGuard.Proofs.Grammar.Route
import PathGuard.Proofs.Rule.Chain
/-!
# The path of a route

A route that is parsed as a statement denotes the path that can be read off its text, whatever stands
in parentheses.
-/

namespace PathGuard

namespace Tree

variable {t : Tree} {place i : Nat} {r : Route} {base : PathBase}

theorem IsName.identifierText? {key : Nat} {name : String} (h : t.IsName key name) :
    t.identifierText? (some key) = some name := by
  obtain ⟨start, stop, is⟩ := h
  rw [Tree.identifierText?, is.recordAt?]

theorem pathWithin_metaProperty {keyword : NodeKind} {key start stop : Nat} {first second : String}
    (is : t.Is i .metaProperty start stop (.metaProperty keyword (some key)))
    (keyword_ : metaSegment? keyword = some first) (named : t.IsName key second) (fuel : Nat)
    (behind : List String) (isOptional : Bool) :
    t.pathWithin (fuel + 1) behind isOptional (some i) =
      some ⟨first :: second :: behind, .metaProperty, isOptional⟩ := by
  obtain ⟨n, hn, kind, -, -, record⟩ := is
  simp [Tree.pathWithin, node?_some, hn, kind, record, keyword_, IsName.identifierText? named]

theorem Routed.pathWithin (h : t.Routed place r base i) (more : Nat) (behind : List String)
    (isOptional : Bool) :
    t.pathWithin (r.nodes + more) behind isOptional (some i) =
      some ⟨r.segments ++ behind, base, isOptional || r.isOptional⟩ := by
  induction h generalizing behind isOptional with
  | name is =>
    obtain ⟨n, hn, kind, -, -, record⟩ := is
    rw [Route.nodes, Nat.add_comm]
    simp [Tree.pathWithin, node?_some, hn, kind, record, Route.segments, Route.isOptional]
  | importMeta named is | newMeta named is =>
    rw [Route.nodes, Nat.add_comm, pathWithin_metaProperty is rfl named, Route.isOptional,
      Bool.or_false]
    rfl
  | @link r l base e i start stop inner is ih =>
    obtain ⟨key, isKey, n, hn, kind, -, -, record⟩ := is
    have static := isKey.spec.2.2
    rw [← kind] at static
    rw [Route.nodes, Nat.add_right_comm, pathWithin_access hn (isAccess_of_link kind) record, static,
      Option.bind_some, ih, Route.segments, Route.isOptional, List.append_assoc, Bool.or_assoc,
      Bool.or_comm l.isOptional]
    rfl
  | @parenthesized r base e i start stop inner is ih =>
    obtain ⟨n, hn, kind, -, -, record⟩ := is
    rw [Route.nodes, Nat.add_right_comm, Tree.pathWithin]
    simp only [node?_some, hn, kind, record]
    exact ih behind isOptional

theorem Routed.path? (h : t.Routed place r base i) (short : r.nodes ≤ maxPathNodes) :
    t.path? (some i) = some ⟨r.segments, base, r.isOptional⟩ := by
  obtain ⟨more, enough⟩ := Nat.exists_eq_add_of_le short
  have walked := h.pathWithin more [] false
  rw [← enough, List.append_nil, Bool.false_or] at walked
  exact walked

end Tree

/-- Whether a path begins where a route does: at the node of its name, which stands behind the opening
parentheses, or at a meta property. -/
def Route.StartsAt (t : Tree) (place : Nat) : Route → PathBase → Prop
  | name n _, base => ∃ i, base = .identifier i ∧
      t.Is i (.token .identifier) place (place + byteLength n.chars) (.identifier n.text)
  | importMeta _, base | newMeta _, base => base = .metaProperty
  | link r _, base | parenthesized r, base => r.StartsAt t place base

theorem Tree.Routed.startsAt {t : Tree} {place i : Nat} {r : Route} {base : PathBase}
    (h : t.Routed place r base i) : r.StartsAt t place base := by
  induction h with
  | name is => exact ⟨_, rfl, is⟩
  | importMeta | newMeta => rfl
  | link _ _ ih => exact ih
  | parenthesized _ _ ih => exact ih

/-- A route as a statement, with at most 100 parentheses and 1000 nodes, is parsed without a problem,
and its expression has the path of its segments. The path begins at the node of the name that the
route begins with, or at a meta property, and it is optional when a link is written with `?.`. -/
theorem parseFile_route (fileName : String) (r : Route) (semicolon : Bool) (flat : r.parens ≤ 100)
    (short : r.nodes ≤ 1000) :
    let text := r.chars ++ if semicolon then [';'] else []
    let file := parseFile fileName (String.ofList text)
    file.problems = [] ∧ ∃ root statement value last row p,
      file.root = some root ∧ row.nodes = [some statement] ∧
      file.tree.Is root .sourceFile 0 (byteLength text) (.sourceFile row (some last) fileName) ∧
      file.tree.Is statement .expressionStatement 0 (byteLength text)
        (.expressionStatement (some value)) ∧
      file.tree.path? (some value) = some p ∧ p.segments = r.segments ∧
      r.StartsAt file.tree r.parens p.base ∧ p.isOptional = r.isOptional ∧
      p.text = ".".intercalate r.segments ∧ p.shown = ".".intercalate r.segments := by
  intro text file
  have written : spelled (r.words ++ Parser.ending semicolon) = text := by
    rw [spelled_append, r.spelled_words]
    cases semicolon <;> rfl
  obtain ⟨ends, stops⟩ := Parser.legible_ending semicolon
  have legible : Legible (r.words ++ Parser.ending semicolon) := r.legible ends stops
  have read (fuel : Nat) (c : Context) : Parser.Reads (Parser.phrase (fuel + maxDepth) .statement) 0
      (r.words ++ Parser.ending semicolon) c 0 (0 + byteLength text) []
      fun i t => ∃ e, (∃ base, t.Routed (0 + r.parens) r base e) ∧
        t.Is i .expressionStatement 0 (0 + byteLength text) (.expressionStatement (some e)) := by
    have deep : maxDepth = 500 := rfl
    have fuels : fuel + maxDepth = fuel + (maxDepth - r.parens - 3) + r.parens + 3 := by omega
    rw [fuels, ← written]
    exact Parser.reads_route_statement r semicolon (by omega)
  have more : r.first.kind ≠ .endOfFile := by
    rcases r.first_kind with k | k | k | k <;> rw [k] <;> exact nofun
  rw [r.words_eq, List.cons_append] at written legible read
  obtain ⟨fine, root, statement, last, row, rooted, nodes, isFile, value, ⟨base, routed⟩, is⟩ :=
    Parser.parseFile_single fileName legible more (fun _ _ _ ⟨e, ⟨base, routed⟩, is⟩ grows =>
      ⟨e, ⟨base, routed.of_extends grows⟩, is.of_extends grows⟩) read
  rw [written] at fine rooted isFile routed is
  rw [Nat.zero_add] at routed is
  refine ⟨fine, root, statement, value, last, row, _, rooted, nodes, isFile, is, routed.path? short,
    rfl, routed.startsAt, rfl, rfl, ?_⟩
  rw [AccessPath.shown_eq_text]
  rfl

/-- The words of the language are names behind a dot, and parentheses do not end a path. -/
theorem parseFile_route_mixed :
    let r : Route := .link (.parenthesized (.link (.parenthesized (.parenthesized
      (.newMeta ⟨'i', ['f'], by decide, List.all_eq_true.1 (by decide)⟩)))
      (.name true ⟨'n', ['e', 'w'], by decide, List.all_eq_true.1 (by decide)⟩)))
      (.key false ⟨['b', ' ', '.'], by simp⟩)
    let file := parseFile "route.ts" "(((new.if))?.new)[\"b .\"];"
    r.parens ≤ 100 ∧ r.nodes ≤ 1000 ∧ file.problems = [] ∧ ∃ value,
      file.tree.path? (some value) = some ⟨["new", "if", "new", "b ."], .metaProperty, true⟩ := by
  intro r file
  have flat : r.parens ≤ 100 := by decide
  have short : r.nodes ≤ 1000 := by decide
  obtain ⟨fine, -, -, value, -, -, p, -, -, -, -, path, segments, starts, isOptional, -⟩ :=
    parseFile_route "route.ts" r true flat short
  have whole : p = ⟨["new", "if", "new", "b ."], .metaProperty, true⟩ := by
    cases p
    cases segments
    cases starts
    cases isOptional
    rfl
  exact ⟨flat, short, fine, value, whole ▸ path⟩

end PathGuard
