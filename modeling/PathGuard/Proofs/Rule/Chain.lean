import PathGuard.Proofs.Access.Path
import PathGuard.Proofs.Grammar.Single
import PathGuard.Proofs.Rule.Protected
import PathGuard.Proofs.Rule.Walk
/-!
# Checking chains

What the check finds in a chain of accesses whose name is free: the violation of the whole chain,
if it has one, and nothing else, since a link further in denotes a beginning of the same path.
-/

namespace PathGuard

namespace Tree

variable {t : Tree} {start stop i : Nat} {k : NodeKind} {r : Record} {base : AsciiName}
  {links : List Link}

/-! ### Nodes of chains -/

theorem Is.construct (sound : t.Sound) (is : t.Is i k start stop r) :
    ∃ n, t.nodes[i]? = some n ∧ n.kind = k ∧ n.start = start ∧ n.stop = stop ∧
      t.Construct i n r := by
  obtain ⟨n, hn, kind, first, last, record⟩ := is
  exact ⟨n, hn, kind, first, last, sound.construct_of_record hn record⟩

theorem Is.children (is : t.Is i k start stop r) (noLoop : r.shape ≠ .loop) :
    t.children (some i) = r.parts.filterMap (·) := by
  obtain ⟨n, hn, -, -, -, record⟩ := is
  unfold Tree.children
  simp only [node?_some, hn, record]
  split
  · next same =>
    rw [Option.some.injEq] at same
    subst same
    exact absurd rfl noLoop
  · next same _ =>
    rw [Option.some.injEq] at same
    rw [same]
  · next none_ => cases none_

theorem Is.recordAt? (is : t.Is i k start stop r) : t.recordAt? (some i) = some r := by
  obtain ⟨n, hn, -, -, -, record⟩ := is
  rw [recordAt?_of_node hn, record]

theorem Is.kind? (is : t.Is i k start stop r) : t.kind? (some i) = some k := by
  obtain ⟨n, hn, kind, -⟩ := is
  rw [kind?_of_node hn, kind]

theorem IsKey.spec {l : Link} (key : t.IsKey i l) :
    t.children (some i) = [] ∧ (∃ k, t.kind? (some i) = some (.token k)) ∧
      t.staticKey? l.kind (some i) = some l.text := by
  cases l with
  | name isOptional n =>
    obtain ⟨start, stop, is⟩ := key
    refine ⟨is.children (by simp [Record.shape]), ⟨_, is.kind?⟩, ?_⟩
    simp [staticKey?, Link.kind, is.kind?, identifierText?, is.recordAt?, Link.text]
  | key isOptional p =>
    obtain ⟨start, stop, raw, is⟩ := key
    refine ⟨is.children (by simp [Record.shape]), ⟨_, is.kind?⟩, ?_⟩
    simp [staticKey?, Link.kind, is.kind?, literalText?, is.recordAt?, Link.text]

theorem isAccess_of_link {l : Link} {n : Node} (kind : n.kind = l.kind) : n.isAccess = true := by
  cases l <;> simp [Node.isAccess, kind, Link.kind]

theorem Chained.denotes (h : t.Chained start base links i) :
    ∃ b, t.identifierText? (some b) = some base.text ∧
      t.Denotes (links.length + 1) i (base.text :: links.map Link.text) (.identifier b) := by
  induction h with
  | @base i is =>
    have text : t.identifierText? (some i) = some base.text := by
      simp [identifierText?, is.recordAt?]
    obtain ⟨n, hn, kind, -, -, record⟩ := is
    exact ⟨i, text, .name hn kind record⟩
  | link inner is ih =>
    obtain ⟨b, text, denotes⟩ := ih
    obtain ⟨key, isKey, n, hn, kind, -, -, record⟩ := is
    have static := isKey.spec.2.2
    rw [← kind] at static
    refine ⟨b, text, ?_⟩
    rw [List.length_append, List.map_append]
    exact .access hn (isAccess_of_link kind) record static denotes

theorem Chained.node (sound : t.Sound) (h : t.Chained start base links i) :
    ∃ n, t.nodes[i]? = some n ∧ n.start = start ∧
      n.stop = start + byteLength (Chain.charsOf base links) ∧ n.kind ≠ .variableDeclaration ∧
      n.isOptionalAccess = links.any Link.isOptional ∧
      n.hasFlag NodeFlag.optionalChain = links.any Link.isOptional := by
  induction h with
  | base is =>
    obtain ⟨n, hn, kind, first, last, construct⟩ := is.construct sound
    have marked : n.flags = chainMark false := construct.layout.marked
    have flag : n.hasFlag NodeFlag.optionalChain = false := hasFlag_chainMark marked
    refine ⟨n, hn, first, by simpa [Chain.charsOf] using last, ?_, ?_, flag⟩
    · rw [kind]
      decide
    · rw [Node.isOptionalAccess, flag, Bool.and_false]
      rfl
  | @link links l e i inner is ih =>
    obtain ⟨m, hm, -, -, -, -, chained⟩ := ih
    obtain ⟨key, isKey, is⟩ := is
    obtain ⟨n, hn, kind, first, last, construct⟩ := is.construct sound
    have marked : n.flags = chainMark (l.isOptional || t.chained (some e)) :=
      construct.layout.marked
    have flag : n.hasFlag NodeFlag.optionalChain = (links ++ [l]).any Link.isOptional := by
      rw [hasFlag_chainMark marked, chained_of_node hm, chained, List.any_append, List.any_cons,
        List.any_nil, Bool.or_false, Bool.or_comm]
    refine ⟨n, hn, first, last, ?_, ?_, flag⟩
    · rw [kind]
      cases l <;> simp [Link.kind]
    · rw [Node.isOptionalAccess, isAccess_of_link kind, Bool.true_and, flag]

/-! ### What properties are taken out of -/

theorem isDestructured_of_other {p : Nat} {n : Node} (owner : t.parent (some i) = some p)
    (hn : t.nodes[p]? = some n) (kind : n.kind ≠ .parenthesized)
    (other : ∀ name value, t.record? n ≠ some (.variableDeclaration name value)) :
    t.isDestructured (some i) = false := by
  have found : t.pastParentheses maxParentSteps (some i) (t.parent (some i)) = some (some i, n) := by
    rw [owner, maxParentSteps, Tree.pastParentheses]
    simp only [node?_some, hn, kind, if_false]
  rw [isDestructured, found]
  -- the side condition of the last case is `other`
  simp only

theorem IsLink.inner_whole (sound : t.Sound) {e : Nat} {l : Link} (is : t.IsLink i e l start stop) :
    t.isDestructured (some e) = false := by
  obtain ⟨key, -, is⟩ := is
  obtain ⟨n, hn, kind, -, -, construct⟩ := is.construct sound
  refine isDestructured_of_other (construct.owns e (List.mem_cons_self ..)) hn ?_ fun name value => ?_
  · rw [kind]
    cases l <;> simp [Link.kind]
  · rw [construct.record]
    simp

theorem IsLink.children {e : Nat} {l : Link} (is : t.IsLink i e l start stop) :
    ∃ key, t.IsKey key l ∧ t.children (some i) = [e, key] := by
  obtain ⟨key, isKey, is⟩ := is
  exact ⟨key, isKey, is.children nofun⟩

end Tree

/-! ### Violations of chains -/

namespace Chain

def violationOf? (paths : ProtectedPaths) (start : Nat) (base : AsciiName) (links : List Link) :
    Option Violation :=
  if links.any Link.isOptional then
    (paths.match? (textOf base links)).map fun path =>
      ⟨.optionalChaining, path, start, start + byteLength (charsOf base links)⟩
  else none

/-- What a chain is protected by, a longer one is protected by. -/
theorem violationOf?_init {paths : ProtectedPaths} {start : Nat} {base : AsciiName}
    {links : List Link} {l : Link} (h : violationOf? paths start base (links ++ [l]) = none) :
    violationOf? paths start base links = none := by
  unfold violationOf? at h ⊢
  split
  · next optional =>
    have longer : (links ++ [l]).any Link.isOptional = true := by
      rw [List.any_append, optional, Bool.true_or]
    rw [if_pos longer, Option.map_eq_none_iff, ← Option.not_isSome_iff_eq_none,
      ProtectedPaths.match?_isSome, textOf_append] at h
    rw [Option.map_eq_none_iff, ← Option.not_isSome_iff_eq_none, ProtectedPaths.match?_isSome]
    rintro ⟨q, hq, descends⟩
    refine h ⟨q, hq, descendsFrom_iff.2 ?_⟩
    rcases descendsFrom_iff.1 descends with same | ⟨rest, same⟩
    · exact .inr ⟨l.text, by rw [same]⟩
    · refine .inr ⟨rest ++ "." ++ l.text, ?_⟩
      rw [same]
      simp only [String.append_assoc]
  · rfl

end Chain

namespace Checker

variable {c : Checker} {start i : Nat} {base : AsciiName} {links : List Link}

theorem globalPath?_chain (chain : c.tree.Chained start base links i)
    (free : ∀ place, c.resolver base.text place = .unbound) (short : links.length < maxPathNodes)
    (context : Child) :
    ∃ p, c.globalPath? (some i) context = some p ∧ p.text = Chain.textOf base links := by
  obtain ⟨b, text, denotes⟩ := chain.denotes
  obtain ⟨isOptional, found⟩ := Tree.path?_eq_some.2 ⟨_, short, denotes⟩
  refine ⟨⟨base.text :: links.map Link.text, .identifier b, isOptional⟩, ?_, rfl⟩
  have global : (AccessPath.mk (base.text :: links.map Link.text) (.identifier b)
      isOptional).startsGlobal c.tree c.resolver context = true := by
    simp [AccessPath.startsGlobal, isGlobal, text, free]
  rw [globalPath?, found, Option.filter_some, if_pos global]

theorem checkNode?_chain (sound : c.tree.Sound) (chain : c.tree.Chained start base links i)
    (free : ∀ place, c.resolver base.text place = .unbound) (short : links.length < maxPathNodes) :
    c.checkNode? i = if c.tree.isDestructured (some i) then none
      else Chain.violationOf? c.paths start base links := by
  obtain ⟨n, hn, first, last, noDeclaration, optional, -⟩ := chain.node sound
  obtain ⟨p, path, text⟩ := globalPath?_chain chain free short (some i)
  unfold checkNode? checkAccess? Chain.violationOf?
  simp only [Tree.node?_some, hn, optional, path, text, Option.bind_some, noDeclaration, first, last]
  cases links.any Link.isOptional <;> simp

theorem checkNode?_of_kind {n : Node} (hn : c.tree.nodes[i]? = some n) (access : n.isAccess = false)
    (declaration : n.kind ≠ .variableDeclaration) : c.checkNode? i = none := by
  have optional : n.isOptionalAccess = false := by rw [Node.isOptionalAccess, access, Bool.false_and]
  unfold checkNode?
  simp only [Tree.node?_some, hn, optional, declaration, Bool.false_eq_true, if_false]

theorem findSome?_token (sound : c.tree.Sound) {k : TokenKind}
    (kind : c.tree.kind? (some i) = some (.token k)) (children : c.tree.children (some i) = []) :
    (c.tree.preorder i).findSome? c.checkNode? = none := by
  obtain ⟨n, hn, same⟩ := Tree.node_of_kind? kind
  rw [sound.preorder_eq, children, List.flatMap_nil, List.findSome?_singleton]
  refine checkNode?_of_kind hn ?_ ?_
  · simp [Node.isAccess, same]
  · rw [same]
    simp

theorem findSome?_chain (sound : c.tree.Sound) (chain : c.tree.Chained start base links i)
    (free : ∀ place, c.resolver base.text place = .unbound) (short : links.length < maxPathNodes)
    (whole : c.tree.isDestructured (some i) = false) :
    (c.tree.preorder i).findSome? c.checkNode? =
      Chain.violationOf? c.paths start base links := by
  induction chain with
  | base is =>
    rw [findSome?_token sound is.kind? (is.children nofun)]
    rfl
  | @link links l e i inner is ih =>
    have self := checkNode?_chain sound (.link inner is) free short
    rw [whole, if_neg Bool.false_ne_true] at self
    rw [List.length_append] at short
    have rest := ih (by omega) (is.inner_whole sound)
    obtain ⟨key, isKey, children⟩ := is.children
    obtain ⟨noParts, ⟨k, kind⟩, -⟩ := isKey.spec
    rw [sound.preorder_eq, children, List.findSome?_cons, self, List.flatMap_cons,
      List.flatMap_singleton, List.findSome?_append, rest, findSome?_token sound kind noParts,
      Option.or_none]
    cases violation : Chain.violationOf? c.paths start base (links ++ [l]) with
    | some violation => rfl
    | none => exact Chain.violationOf?_init violation

/-- The first violation in a chain that a declaration takes properties out of. The chain itself is
left to the declaration. -/
theorem findSome?_destructured (sound : c.tree.Sound) (chain : c.tree.Chained start base links i)
    (free : ∀ place, c.resolver base.text place = .unbound) (short : links.length < maxPathNodes)
    (taken : c.tree.isDestructured (some i) = true) :
    (c.tree.preorder i).findSome? c.checkNode? =
      Chain.violationOf? c.paths start base links.dropLast := by
  cases chain with
  | base is =>
    rw [findSome?_token sound is.kind? (is.children nofun)]
    rfl
  | @link links l e _ inner is =>
    have self := checkNode?_chain sound (.link inner is) free short
    rw [taken, if_pos rfl] at self
    rw [List.length_append] at short
    have rest := findSome?_chain sound inner free (by omega) (is.inner_whole sound)
    obtain ⟨key, isKey, children⟩ := is.children
    obtain ⟨noParts, ⟨k, kind⟩, -⟩ := isKey.spec
    rw [sound.preorder_eq, children, List.findSome?_cons, self, List.flatMap_cons,
      List.flatMap_singleton, List.findSome?_append, rest, findSome?_token sound kind noParts,
      Option.or_none, List.dropLast_concat]

end Checker

end PathGuard
