import PathGuard.Proofs.Access.Route
import PathGuard.Proofs.Grammar.Destructuring
import PathGuard.Proofs.Grammar.Parsed
import PathGuard.Proofs.Rule.Destructured
/-!
# Values that properties are taken out of

An access in an optional chain is left to the declaration that takes properties out of it. Going up
from the access finds such a declaration just when going down from the declaration, past the
parentheses around its value, comes to the access. The declaration is then judged by the access: by
its mark, and by its path as long as the chain and the parentheses together are not too long to be
followed.
-/

namespace PathGuard

theorem kind_of_shape_parenthesized {k : NodeKind} (shape : k.shape? = some .parenthesized) :
    k = .parenthesized := by
  unfold NodeKind.shape? at shape
  split at shape <;> first | rfl | cases shape

theorem kind_of_shape_variableDeclaration {k : NodeKind}
    (shape : k.shape? = some .variableDeclaration) : k = .variableDeclaration := by
  unfold NodeKind.shape? at shape
  split at shape <;> first | rfl | cases shape

namespace Tree

variable {t : Tree} {outer inner count : Nat}

/-! ### Going down past parentheses -/

theorem skipParenthesesWithin_parenthesized {p : Nat} {n : Node} {e : Child}
    (node : t.nodes[p]? = some n) (record : t.record? n = some (.parenthesized e)) (fuel : Nat) :
    t.skipParenthesesWithin (fuel + 1) (some p) = t.skipParenthesesWithin fuel e := by
  rw [skipParenthesesWithin, recordAt?_of_node node, record]

theorem Wraps.skipParenthesesWithin (h : t.Wraps outer count inner) (fuel : Nat) :
    t.skipParenthesesWithin (count + fuel) (some outer) =
      t.skipParenthesesWithin fuel (some inner) := by
  induction h generalizing fuel with
  | self => rw [Nat.zero_add]
  | @parenthesized count p i n node kind record outside ih =>
    rw [Nat.add_right_comm, Nat.add_assoc, ih, skipParenthesesWithin_parenthesized node record]

theorem Wraps.outside {p e : Nat} {n : Node} (node : t.nodes[p]? = some n)
    (kind : n.kind = .parenthesized) (record : t.record? n = some (.parenthesized (some e)))
    (h : t.Wraps e count inner) : t.Wraps p (count + 1) inner := by
  induction h with
  | self => exact .parenthesized node kind record .self
  | parenthesized node' kind' record' _ ih => exact .parenthesized node' kind' record' ih

theorem Sound.kind_of_parenthesized (sound : t.Sound) {p : Nat} {n : Node} {e : Child}
    (node : t.nodes[p]? = some n) (record : t.record? n = some (.parenthesized e)) :
    n.kind = .parenthesized :=
  kind_of_shape_parenthesized (sound.construct_of_record node record).layout.shape

theorem wraps_of_skipParenthesesWithin (sound : t.Sound) {fuel : Nat}
    (h : t.skipParenthesesWithin fuel (some outer) = some inner) :
    ∃ count, t.Wraps outer count inner := by
  induction fuel generalizing outer with
  | zero =>
    cases h
    exact ⟨0, .self⟩
  | succ fuel ih =>
    unfold Tree.skipParenthesesWithin at h
    split at h
    · next expression record =>
      obtain ⟨p, n, same, node, record⟩ := exists_node_of_recordAt? record
      cases same
      cases expression with
      | none => cases fuel <;> cases h
      | some e =>
        obtain ⟨count, wraps⟩ := ih h
        exact ⟨count + 1, wraps.outside node (sound.kind_of_parenthesized node record) record⟩
    · cases h
      exact ⟨0, .self⟩

theorem Wraps.add_le (sound : t.Sound) (h : t.Wraps outer count inner) : inner + count ≤ outer := by
  induction h with
  | self => exact Nat.le_refl _
  | @parenthesized count p i n node kind record outside ih =>
    have before : i < p :=
      (sound.construct_of_record node record).before i (List.mem_singleton_self _)
    omega

theorem Wraps.there (h : t.Wraps outer count inner) {n : Node} (there : t.nodes[inner]? = some n) :
    ∃ m, t.nodes[outer]? = some m := by
  induction h generalizing n with
  | self => exact ⟨n, there⟩
  | parenthesized node _ _ _ ih => exact ih node

theorem skipParentheses_eq_iff (sound : t.Sound) {n : Node} (there : t.nodes[inner]? = some n)
    (plain : n.kind ≠ .parenthesized) :
    t.skipParentheses (some outer) = some inner ↔ ∃ count, t.Wraps outer count inner := by
  constructor
  · exact wraps_of_skipParenthesesWithin sound
  · rintro ⟨count, wraps⟩
    have stop (fuel : Nat) : t.skipParenthesesWithin fuel (some inner) = some inner := by
      cases fuel with
      | zero => rfl
      | succ fuel =>
        unfold Tree.skipParenthesesWithin
        rw [recordAt?_of_node there]
        split
        · next record => exact absurd (sound.kind_of_parenthesized there record) plain
        · rfl
    have few : count ≤ t.size + 1 := by
      obtain ⟨m, hm⟩ := wraps.there there
      have inside := lt_size_of_node hm
      have deep := wraps.add_le sound
      omega
    obtain ⟨rest, enough⟩ := Nat.exists_eq_add_of_le few
    rw [skipParentheses, enough, wraps.skipParenthesesWithin, stop]

theorem Wraps.unique (sound : t.Sound) {outer' count' d d' : Nat} {n n' : Node}
    (h : t.Wraps outer count inner) (owner : t.parent (some outer) = some d)
    (node : t.nodes[d]? = some n) (other : n.kind ≠ .parenthesized)
    (h' : t.Wraps outer' count' inner) (owner' : t.parent (some outer') = some d')
    (node' : t.nodes[d']? = some n') (other' : n'.kind ≠ .parenthesized) :
    outer' = outer ∧ d' = d := by
  have up := h.pastParentheses sound (count' + 1)
  have up' := h'.pastParentheses sound (count + 1)
  have same : count' + (count + 1) = count + (count' + 1) := by omega
  rw [owner, Tree.pastParentheses] at up
  rw [owner', Tree.pastParentheses, same, up] at up'
  simp only [node?_some, node, node', if_neg other, if_neg other', Option.some.injEq,
    Prod.mk.injEq] at up'
  obtain rfl := up'.1
  rw [owner, Option.some.injEq] at owner'
  exact ⟨rfl, owner'.symm⟩

/-! ### The path of what stands in parentheses -/

theorem Wraps.pathWithin (h : t.Wraps outer count inner) (fuel : Nat) (behind : List String)
    (isOptional : Bool) :
    t.pathWithin (count + fuel) behind isOptional (some outer) =
      t.pathWithin fuel behind isOptional (some inner) := by
  induction h generalizing fuel with
  | self => rw [Nat.zero_add]
  | @parenthesized count p i n node kind record outside ih =>
    rw [Nat.add_right_comm, Nat.add_assoc, ih, Tree.pathWithin]
    simp only [node?_some, node, kind, record]

/-- On a chain that denotes a path, the walk does not depend on how many nodes it may pass, as long
as the chain is not longer. -/
theorem Denotes.pathWithin_eq {nodes i : Nat} {segments : List String} {base : PathBase}
    (h : t.Denotes nodes i segments base) {fuel more : Nat} (enough : nodes ≤ fuel)
    (enough' : nodes ≤ more) (behind : List String) (isOptional : Bool) :
    t.pathWithin fuel behind isOptional (some i) =
      t.pathWithin more behind isOptional (some i) := by
  induction h generalizing fuel more behind isOptional with
  | name node kind record | metaProperty node kind record =>
    obtain ⟨fuel, rfl⟩ := Nat.exists_eq_add_of_le' enough
    obtain ⟨more, rfl⟩ := Nat.exists_eq_add_of_le' enough'
    simp [Tree.pathWithin, node?_some, node, kind, record]
  | parenthesized node kind record inner ih =>
    obtain ⟨fuel, rfl⟩ := Nat.exists_eq_add_of_le' (Nat.le_trans (Nat.le_add_left 1 _) enough)
    obtain ⟨more, rfl⟩ := Nat.exists_eq_add_of_le' (Nat.le_trans (Nat.le_add_left 1 _) enough')
    simp only [Tree.pathWithin, node?_some, node, kind, record]
    exact ih (Nat.le_of_succ_le_succ enough) (Nat.le_of_succ_le_succ enough') behind isOptional
  | access node access record static inner ih =>
    obtain ⟨fuel, rfl⟩ := Nat.exists_eq_add_of_le' (Nat.le_trans (Nat.le_add_left 1 _) enough)
    obtain ⟨more, rfl⟩ := Nat.exists_eq_add_of_le' (Nat.le_trans (Nat.le_add_left 1 _) enough')
    rw [pathWithin_access node access record, pathWithin_access node access record, static,
      Option.bind_some, Option.bind_some]
    exact ih (Nat.le_of_succ_le_succ enough) (Nat.le_of_succ_le_succ enough') _ _

theorem Wraps.path?_eq_some (h : t.Wraps outer count inner) {p : AccessPath} :
    t.path? (some outer) = some p ↔ t.path? (some inner) = some p ∧
      ∃ nodes segments, t.Denotes nodes inner segments p.base ∧ nodes + count ≤ maxPathNodes := by
  constructor
  · intro found
    obtain ⟨j, deep, segments, same, low, denotes, -⟩ := denotes_of_pathWithin found
    cases same
    have wide : t.path? (some outer) = t.path? (some inner) := by
      rw [path?, denotes.pathWithin_eq low (Nat.le_trans low (Nat.le_add_left _ count)),
        h.pathWithin]
      rfl
    have few : count < maxPathNodes := by
      by_contra many
      rw [path?, denotes.pathWithin_eq low (by omega : deep ≤ count + 0), h.pathWithin] at found
      cases found
    obtain ⟨left, limit⟩ := Nat.exists_eq_add_of_le (Nat.le_of_lt few)
    have walked : t.pathWithin left [] false (some inner) = some p := by
      rw [← found, path?, limit, h.pathWithin]
    obtain ⟨j, nodes, segments, same, low, denotes, -⟩ := denotes_of_pathWithin walked
    cases same
    exact ⟨wide.symm.trans found, nodes, segments, denotes, by omega⟩
  · rintro ⟨found, nodes, segments, denotes, low⟩
    obtain ⟨left, limit⟩ := Nat.exists_eq_add_of_le (by omega : count ≤ maxPathNodes)
    have short : nodes ≤ maxPathNodes := by omega
    rw [path?, limit, h.pathWithin, denotes.pathWithin_eq (by omega) short]
    exact found

/-! ### Declarations -/

/-- Whether a node is a variable declaration with an object pattern and a value. -/
structure Destructures (t : Tree) (d : NodeId) (n : Node) (name value : NodeId) : Prop where
  node : t.nodes[d]? = some n
  kind : n.kind = .variableDeclaration
  record : t.record? n = some (.variableDeclaration (some name) (some value))
  pattern : t.kind? (some name) = some .objectBindingPattern

namespace Destructures

variable {d d' name name' value value' : NodeId} {n n' : Node}

theorem parent_value (h : t.Destructures d n name value) (sound : t.Sound) :
    t.parent (some value) = some d :=
  (sound.construct_of_record h.node h.record).owns value
    (List.mem_cons_of_mem _ (List.mem_singleton_self _))

theorem below (h : t.Destructures d n name value) (sound : t.Sound)
    (wraps : t.Wraps value count inner) : t.Below d inner := by
  have first : t.Below d value := .of_child (sound.mem_children.2 (h.parent_value sound)) .self
  induction wraps with
  | self => exact first
  | @parenthesized count p i n node kind record outside ih =>
    have owned := (sound.construct_of_record node record).owns i (List.mem_singleton_self _)
    exact ih.part (sound.mem_children.2 owned)

theorem elements (h : t.Destructures d n name value) (sound : t.Sound) :
    ∃ elements, t.recordAt? (some name) = some (.bindingPattern elements) := by
  obtain ⟨m, hm, kind⟩ := node_of_kind? h.pattern
  have pattern : m.kind.shape? = some .bindingPattern := by
    rw [kind]
    rfl
  obtain ⟨r, construct, shape⟩ := sound.construct_of_shape hm pattern
  cases r <;> cases shape
  exact ⟨_, construct.node_record hm⟩

end Destructures

theorem destructured_iff (sound : t.Sound) {i : Nat} {n : Node} (there : t.nodes[i]? = some n)
    (plain : n.kind ≠ .parenthesized) :
    t.Destructured i ↔ ∃ d m name value, t.Destructures d m name value ∧
      t.skipParentheses (some value) = some i := by
  constructor
  · rintro ⟨d, m, name, value, count, node, record, pattern, wraps⟩
    cases name with
    | none => cases pattern
    | some name =>
      have kind := kind_of_shape_variableDeclaration
        (sound.construct_of_record node record).layout.shape
      exact ⟨d, m, name, value, ⟨node, kind, record, pattern⟩,
        (skipParentheses_eq_iff sound there plain).2 ⟨count, wraps⟩⟩
  · rintro ⟨d, m, name, value, h, skip⟩
    obtain ⟨count, wraps⟩ := (skipParentheses_eq_iff sound there plain).1 skip
    exact ⟨d, m, some name, value, count, h.node, h.record, h.pattern, wraps⟩

end Tree

namespace Checker

/-- What is wrong with a declaration that takes elements out of an expression, by the path of the
expression and by whether it ends an optional chain. -/
def judge? (c : Checker) (d : NodeId) (n : Node) (elements : List Child) (path : Option AccessPath)
    (isOptional : Bool) : Option Violation :=
  (path.filter fun p => p.startsGlobal c.tree c.resolver (some d)).bind fun p =>
    (c.checkPattern? p.text isOptional elements).map fun (kind, path) =>
      ⟨kind, path, n.start, n.stop⟩

variable {c : Checker} {d i name value : NodeId} {n m : Node} {elements : NodeList}

theorem checkNode?_declaration (node : c.tree.nodes[d]? = some m)
    (kind : m.kind = .variableDeclaration) : c.checkNode? d = c.checkDeclaration? (some d) := by
  have noAccess : m.isOptionalAccess = false := by
    rw [Node.isOptionalAccess, Node.isAccess, kind]
    rfl
  simp only [checkNode?, Tree.node?_some, node, noAccess, kind, Bool.false_eq_true, if_false,
    if_true]

theorem checkDeclaration?_destructures (h : c.tree.Destructures d m name value)
    (row : c.tree.recordAt? (some name) = some (.bindingPattern elements))
    (skip : c.tree.skipParentheses (some value) = some i) (there : c.tree.nodes[i]? = some n) :
    c.checkDeclaration? (some d) = c.judge? d m elements.nodes (c.tree.path? (some value))
      (n.hasFlag NodeFlag.optionalChain) := by
  simp only [checkDeclaration?, Tree.node?_some, h.node, h.record, h.pattern, row, skip, there,
    Option.map_some, Option.getD_some]
  rfl

end Checker

/-- In every parsed text, an expression is left to a declaration just when going down from a
variable declaration with an object pattern, past the parentheses around its value, comes to it.
There is one such declaration only. It is among the nodes that are checked if the expression is, it
is judged by the mark of the expression, and by the path of the expression if the chain and the
parentheses together have at most 1000 nodes; otherwise the value has no path. -/
theorem parseFile_destructured (fileName source : String) {i : NodeId} {n : Node}
    (there : (parseFile fileName source).tree.nodes[i]? = some n)
    (plain : n.kind ≠ .parenthesized) :
    let file := parseFile fileName source
    let t := file.tree
    (t.isDestructured (some i) = true ↔ ∃ d m name value, t.Destructures d m name value ∧
      t.skipParentheses (some value) = some i) ∧
    ∀ d m name value, t.Destructures d m name value → t.skipParentheses (some value) = some i →
      (∀ d' m' name' value', t.Destructures d' m' name' value' →
        t.skipParentheses (some value') = some i → d' = d) ∧
      (∃ elements, t.recordAt? (some name) = some (.bindingPattern elements) ∧
        ∀ resolver paths, let c : Checker := ⟨t, resolver, paths⟩
          c.checkNode? d = c.checkDeclaration? (some d) ∧ c.checkDeclaration? (some d) =
            c.judge? d m elements.nodes (t.path? (some value)) (n.hasFlag NodeFlag.optionalChain)) ∧
      (∃ count, t.Wraps value count i ∧ ∀ p, t.path? (some value) = some p ↔
        t.path? (some i) = some p ∧ ∃ nodes segments, t.Denotes nodes i segments p.base ∧
          nodes + count ≤ maxPathNodes) ∧
      ∀ root, file.root = some root → t.Below root i → t.Below root d := by
  intro file t
  have sound : t.Sound := (parseFile_sound fileName source).tree
  refine ⟨(Tree.isDestructured_iff sound).trans (Tree.destructured_iff sound there plain), ?_⟩
  intro d m name value h skip
  have notGroup {m : Node} (kind : m.kind = .variableDeclaration) : m.kind ≠ .parenthesized := by
    rw [kind]
    exact nofun
  obtain ⟨count, wraps⟩ := (Tree.skipParentheses_eq_iff sound there plain).1 skip
  obtain ⟨elements, row⟩ := h.elements sound
  refine ⟨?_, ⟨elements, row, fun resolver paths => ?_⟩,
    ⟨count, wraps, fun p => wraps.path?_eq_some⟩, ?_⟩
  · intro d' m' name' value' h' skip'
    obtain ⟨count', wraps'⟩ := (Tree.skipParentheses_eq_iff sound there plain).1 skip'
    exact (wraps.unique sound (h.parent_value sound) h.node (notGroup h.kind) wraps'
      (h'.parent_value sound) h'.node (notGroup h'.kind)).2
  · intro c
    exact ⟨Checker.checkNode?_declaration h.node h.kind,
      Checker.checkDeclaration?_destructures (c := c) h row skip there⟩
  · intro root isRoot below
    -- the root and the declaration both lie above the expression, and the root is the last node
    obtain ⟨last, isLast, size⟩ := parseFile_root_last fileName source
    cases isRoot.symm.trans isLast
    rcases below.linear sound (h.below sound wraps) with down | up
    · exact down
    · have inside : d < root + 1 := size ▸ Tree.lt_size_of_node h.node
      obtain rfl : d = root := Nat.le_antisymm (Nat.le_of_lt_succ inside) (up.le sound)
      exact .self

/-- An access in parentheses is left to its declaration. -/
theorem parseFile_destructured_optional :
    let t := (parseFile "a.js" "const { x } = (a?.b);").tree
    let n : Node := ⟨.propertyAccess, NodeFlag.optionalChain, 15, 19, some 0, some 6⟩
    t.nodes[5]? = some n ∧ n.kind ≠ .parenthesized ∧ ∃ d m name value,
      t.Destructures d m name value ∧ t.skipParentheses (some value) = some 5 := by
  have there : (parseFile "a.js" "const { x } = (a?.b);").tree.nodes[5]? =
      some ⟨.propertyAccess, NodeFlag.optionalChain, 15, 19, some 0, some 6⟩ := by decide +kernel
  have destructured :
      (parseFile "a.js" "const { x } = (a?.b);").tree.isDestructured (some 5) = true := by
    decide +kernel
  exact ⟨there, nofun, (parseFile_destructured "a.js" "const { x } = (a?.b);" there nofun).1.1
    destructured⟩

/-! ### Chains that are too long together with their parentheses -/

namespace Parser

variable {fuel offset depth : Nat} {c : Context}

def takingWords (es : List Element) (r : Route) : List Word :=
  markWord .openBrace true :: (Element.listWords es ++ markWord .closeBrace true ::
    markWord .equals true :: (r.parenthesized.words ++ [markWord .semicolon false]))

def takingChars (es : List Element) (r : Route) : List Char :=
  ['c', 'o', 'n', 's', 't', ' ', '{'] ++ Element.listChars es ++ [' ', '}', ' ', '='] ++
    r.parenthesized.chars ++ [';']

theorem spelled_taking (es : List Element) (r : Route) :
    spelled (Destructuring.constName.word false :: takingWords es r) = takingChars es r := by
  rw [spelled_cons, takingWords, spelled_cons, spelled_append, Element.spelled_listWords,
    spelled_cons, spelled_cons, spelled_append, Route.spelled_words]
  simp [takingChars, Destructuring.constName, AsciiName.word, AsciiName.chars, markWord,
    Word.margin, Punctuator.chars, spelled]

theorem legible_taking (es : List Element) (r : Route) :
    Legible (Destructuring.constName.word false :: takingWords es r) := by
  have value : Legible (r.parenthesized.words ++ [markWord .semicolon false]) :=
    r.parenthesized.legible ⟨legible_alone rfl false _, trivial⟩
      (endsName_cons (by decide +kernel) _)
  have equals : (markWord .equals true).Legible
      (spelled (r.parenthesized.words ++ [markWord .semicolon false])) := by
    rw [spelled_append, Route.spelled_words]
    exact legible_mark .equals true ⟨'=', [], rfl, by decide +kernel, .inl (by decide)⟩ rfl
  exact ⟨legible_name Destructuring.constName false (endsName_blank _), legible_alone rfl true _,
    Element.legible_list es ⟨legible_alone rfl true _, equals, value⟩ (endsName_blank _)⟩

def Taking (t : Tree) (es : List Element) (r : Route) (d : NodeId) : Prop :=
  ∃ pattern value start stop, t.IsPattern pattern es ∧
    (∃ place base, t.Routed place r.parenthesized base value) ∧
    t.Is d .variableDeclaration start stop (.variableDeclaration (some pattern) (some value))

theorem Taking.of_extends {t t' : Tree} {es : List Element} {r : Route} {d : NodeId}
    (h : Taking t es r d) (grows : t.Extends t') : Taking t' es r d := by
  obtain ⟨pattern, value, start, stop, isPattern, ⟨place, base, routed⟩, is⟩ := h
  exact ⟨pattern, value, start, stop, isPattern.of_extends grows,
    ⟨place, base, routed.of_extends grows⟩, is.of_extends grows⟩

def valueStart (es : List Element) : Nat :=
  (Destructuring.constName.word false).size + (markWord .openBrace true).size +
    byteLength (Element.listChars es) + (markWord .closeBrace true).size +
    (markWord .equals true).size

theorem reads_taking (es : List Element) (r : Route) (room : depth + 2 * r.parens + 7 < maxDepth) :
    Reads (phrase (fuel + r.parens + 4) .statement) 0
      (Destructuring.constName.word false :: takingWords es r) c depth
      (valueStart es + byteLength r.parenthesized.chars + (markWord .semicolon false).size) []
      fun _ t => ∃ d, Taking t es r d := by
  have value : Reads (phrase (fuel + r.parenthesized.parens + 2) .assignment) (valueStart es)
      (r.parenthesized.words ++ [markWord .semicolon false]) c (depth + 1)
      (valueStart es + byteLength r.parenthesized.chars) [markWord .semicolon false]
      fun i t => ∃ base, t.Routed (valueStart es + r.parenthesized.parens) r.parenthesized base i :=
    reads_route r.parenthesized (by rw [Route.parens]; omega) rfl
  have variable_ := reads_patternVariable (by omega) es (by
    rintro _ _ _ ⟨base, routed⟩ grows
    exact ⟨base, routed.of_extends grows⟩) value
  intro s at_
  obtain ⟨i, s', run, after, grows, d, list, stop, last, ⟨pattern, e, isPattern, routed, is⟩, -⟩ :=
    reads_constants (by omega) (by
      rintro _ _ _ ⟨pattern, e, isPattern, ⟨base, routed⟩, is⟩ grows
      exact ⟨pattern, e, isPattern.of_extends grows, ⟨base, routed.of_extends grows⟩,
        is.of_extends grows⟩) variable_ s at_
  exact ⟨i, s', run, after, grows, d, pattern, e, _, _, isPattern, ⟨_, routed⟩, is⟩

theorem parseFile_taking (fileName : String) (es : List Element) (r : Route)
    (flat : r.parens ≤ 100) :
    ∃ d, Taking (parseFile fileName (String.ofList (takingChars es r))).tree es r d := by
  have deep : maxDepth = 500 := rfl
  have more : (Destructuring.constName.word false).kind ≠ .endOfFile := by decide +kernel
  obtain ⟨-, -, -, -, -, -, -, -, taking⟩ := parseFile_single (Q := fun _ t => ∃ d, Taking t es r d)
    fileName (legible_taking es r) more
    (fun _ _ _ ⟨d, taking⟩ grows => ⟨d, taking.of_extends grows⟩) fun fuel c => by
      have fuels : fuel + maxDepth = fuel + (maxDepth - r.parens - 4) + r.parens + 4 := by omega
      rw [fuels]
      exact reads_taking es r (by omega)
  rwa [spelled_taking] at taking

end Parser

theorem Tree.Routed.pathWithin_none {t : Tree} {place i : Nat} {r : Route} {base : PathBase}
    (h : t.Routed place r base i) {fuel : Nat} (long : fuel < r.nodes) (behind : List String)
    (isOptional : Bool) : t.pathWithin fuel behind isOptional (some i) = none := by
  induction h generalizing fuel behind isOptional with
  | name is | importMeta named is | newMeta named is =>
    obtain rfl : fuel = 0 := Nat.lt_one_iff.1 long
    rfl
  | @link r l base e i start stop inner is ih =>
    cases fuel with
    | zero => rfl
    | succ fuel =>
      obtain ⟨key, isKey, n, hn, kind, -, -, record⟩ := is
      have static := isKey.spec.2.2
      rw [← kind] at static
      rw [pathWithin_access hn (isAccess_of_link kind) record, static, Option.bind_some]
      exact ih (Nat.lt_of_succ_lt_succ long) _ _
  | @parenthesized r base e i start stop inner is ih =>
    cases fuel with
    | zero => rfl
    | succ fuel =>
      obtain ⟨n, hn, kind, -, -, record⟩ := is
      rw [Tree.pathWithin]
      simp only [node?_some, hn, kind, record]
      exact ih (Nat.lt_of_succ_lt_succ long) behind isOptional

/-- A chain in parentheses that is as long as a path may be is left to its declaration, and has a
path, but the value of the declaration has none. -/
theorem parseFile_taking_longest (fileName : String) (es : List Element) (r : Route) (l : Link)
    (flat : r.parens ≤ 100) (long : r.nodes + 1 = maxPathNodes) :
    let t := (parseFile fileName (String.ofList (Parser.takingChars es (.link r l)))).tree
    ∃ d m name value i n p, t.Destructures d m name value ∧
      t.skipParentheses (some value) = some i ∧ t.nodes[i]? = some n ∧ n.kind ≠ .parenthesized ∧
      t.isDestructured (some i) = true ∧ t.path? (some i) = some p ∧
      t.path? (some value) = none := by
  intro t
  have sound : t.Sound := (parseFile_sound _ _).tree
  obtain ⟨d, pattern, value, start, stop, isPattern, ⟨place, base, routed⟩, m, hm, kind, -, -,
    record⟩ := Parser.parseFile_taking fileName es (.link r l) flat
  obtain ⟨ids, first, last, -, o, ho, patternKind, -⟩ := isPattern
  have destructures : t.Destructures d m pattern value :=
    ⟨hm, kind, record, (Tree.kind?_of_node ho).trans (congrArg some patternKind)⟩
  cases routed with
  | @parenthesized _ _ i _ _ _ inner is =>
    obtain ⟨q, hq, groupKind, -, -, group⟩ := is
    have wraps : t.Wraps value 1 i := .parenthesized hq groupKind group .self
    have path := inner.path? (Nat.le_of_eq long)
    have none_ : t.path? (some value) = none := by
      have limit : maxPathNodes = 1 + r.nodes := by rw [← long, Nat.add_comm]
      rw [Tree.path?, limit, wraps.pathWithin]
      exact inner.pathWithin_none (Nat.lt_succ_self _) _ _
    cases inner with
    | @link _ _ _ e _ first last inner is =>
      obtain ⟨key, -, n, hn, linkKind, -⟩ := is
      have plain : n.kind ≠ .parenthesized := by
        rw [linkKind]
        cases l <;> exact nofun
      have skip : t.skipParentheses (some value) = some i :=
        (Tree.skipParentheses_eq_iff sound hn plain).2 ⟨1, wraps⟩
      have left : t.isDestructured (some i) = true := (Tree.isDestructured_iff sound).2
        ((Tree.destructured_iff sound hn plain).2 ⟨d, m, pattern, value, destructures, skip⟩)
      exact ⟨d, m, pattern, value, i, n, _, destructures, skip, hn, plain, left, path, none_⟩

namespace Route

def letter : FreeName :=
  ⟨⟨'a', [], by decide, List.forall_mem_nil _⟩, by
    unfold AsciiName.IsFree AsciiName.text
    decide +kernel⟩

def taken : FreeName :=
  ⟨⟨'x', [], by decide, List.forall_mem_nil _⟩, by unfold AsciiName.IsFree; decide +kernel⟩

def dotted : (count : Nat) → Route
  | 0 => .name letter.name letter.free
  | count + 1 => .link (dotted count) (.name false letter.name)

theorem nodes_dotted (count : Nat) : (dotted count).nodes = count + 1 := by
  induction count with
  | zero => rfl
  | succ count ih => rw [dotted, nodes, ih]

theorem parens_dotted (count : Nat) : (dotted count).parens = 0 := by
  induction count with
  | zero => rfl
  | succ count ih => rw [dotted, parens, ih]

end Route

/-- The name `x` is taken out of the chain `a.a` and so on with 999 links, the last of them written
with `?.`, in parentheses. -/
theorem parseFile_taking_longest_dotted :
    let t := (parseFile "a.js" (String.ofList (Parser.takingChars [.same Route.taken]
      (.link (.dotted 998) (.name true Route.letter.name))))).tree
    ∃ d m name value i n p, t.Destructures d m name value ∧
      t.skipParentheses (some value) = some i ∧ t.nodes[i]? = some n ∧ n.kind ≠ .parenthesized ∧
      t.isDestructured (some i) = true ∧ t.path? (some i) = some p ∧ t.path? (some value) = none :=
  parseFile_taking_longest "a.js" [.same Route.taken] (.dotted 998)
    (.name true Route.letter.name) (by rw [Route.parens_dotted]; decide)
    (by rw [Route.nodes_dotted]; rfl)

end PathGuard
