import PathGuard.Proofs.Grammar.Destructuring
import PathGuard.Proofs.Rule.Destructured
import PathGuard.Proofs.Rule.Single
/-!
# Checking destructuring declarations

What is wrong with a text that takes properties out of a chain. When the chain is an optional one
and protected itself, the declaration is the violation, and when it is not protected, what remains
is the chain without its last link. Properties of a plain chain are looked at one by one.
-/

namespace PathGuard

/-! ### Nodes that matter to no check -/

/-- Whether a node of a kind declares nothing, and is no access. -/
def NodeKind.isPlain (k : NodeKind) : Bool :=
  !k.isDeclaring && k != .propertyAccess && k != .elementAccess

namespace Tree

variable {t : Tree} {i : Nat}

def PlainBelow (t : Tree) (i : Nat) : Prop :=
  ∀ d, t.Below i d → ∀ n, t.nodes[d]? = some n → n.kind.isPlain = true

theorem plainBelow_of_parts {k : NodeKind} (kind : t.kind? (some i) = some k)
    (plain : k.isPlain = true) (parts : ∀ c ∈ t.children (some i), t.PlainBelow c) :
    t.PlainBelow i := by
  intro d below
  rcases below.cases_top with rfl | ⟨c, part, below⟩
  · intro n hn
    rw [kind?_of_node hn, Option.some.injEq] at kind
    rw [kind]
    exact plain
  · exact parts c part d below

theorem PlainBelow.onlyBelow (h : t.PlainBelow i) {names : List String} : t.OnlyBelow names i := by
  intro d below
  cases hn : t.nodes[d]? with
  | none =>
    intro e x he
    have nothing : t.declarations d = [] ∧ t.innerDeclarations d = [] := by
      simp [declarations, innerDeclarations, Tree.kind?, node?_some, hn]
    rw [nothing.1, nothing.2] at he
    rcases he with no | no <;> cases no
  | some n =>
    have plain := h d below n hn
    simp only [NodeKind.isPlain, Bool.and_eq_true, Bool.not_eq_true'] at plain
    exact (silent_of_kind hn plain.1.1).declaresOnly

theorem IsName.plainBelow {name : String} (h : t.IsName i name) : t.PlainBelow i := by
  obtain ⟨start, stop, is⟩ := h
  refine plainBelow_of_parts is.kind? rfl fun c part => ?_
  rw [is.children nofun] at part
  cases part

theorem IsProperty.plainBelow {p : Nat} {e : Element} (h : t.IsProperty (some p) e) :
    t.PlainBelow p := by
  cases e with
  | same n => cases h
  | named key n => exact Tree.IsName.plainBelow h
  | keyed key n =>
    obtain ⟨e, start, stop, ⟨first, last, raw, string⟩, is⟩ := h
    refine plainBelow_of_parts is.kind? rfl fun c part => ?_
    have children : t.children (some p) = [e] := is.children nofun
    rw [children, List.mem_singleton] at part
    subst part
    refine plainBelow_of_parts string.kind? rfl fun c part => ?_
    rw [string.children nofun] at part
    cases part
  | rest n => cases h

theorem IsElement.plainBelow {e : Element} (h : t.IsElement i e) : t.PlainBelow i := by
  obtain ⟨property, name, start, stop, isProperty, isName, is⟩ := h
  refine plainBelow_of_parts is.kind? rfl fun c part => ?_
  rw [is.children nofun, List.mem_filterMap] at part
  obtain ⟨_, member, rfl⟩ := part
  simp only [Record.parts, List.mem_cons, reduceCtorEq, List.not_mem_nil, or_false,
    Option.some.injEq] at member
  rcases member with rfl | rfl
  · exact isProperty.plainBelow
  · exact isName.plainBelow

theorem IsPattern.children {es : List Element} (h : t.IsPattern i es) {c : Nat}
    (part : c ∈ t.children (some i)) : ∃ e ∈ es, t.IsElement c e := by
  obtain ⟨ids, start, stop, elements, is⟩ := h
  have same : t.children (some i) = ids := by
    rw [is.children nofun]
    simp [Record.parts, NodeList.ofNodes]
  rw [same] at part
  clear is same
  induction elements with
  | nil => cases part
  | @cons id e _ _ element _ ih =>
    rcases List.mem_cons.1 part with rfl | later
    · exact ⟨e, List.mem_cons_self .., element⟩
    · obtain ⟨e', member, element'⟩ := ih later
      exact ⟨e', List.mem_cons_of_mem _ member, element'⟩

theorem IsPattern.plainBelow {es : List Element} (h : t.IsPattern i es) : t.PlainBelow i := by
  obtain ⟨ids, start, stop, -, is⟩ := id h
  refine plainBelow_of_parts is.kind? rfl fun c part => ?_
  obtain ⟨e, -, element⟩ := h.children part
  exact element.plainBelow

/-! ### Patterns -/

theorem IsElement.takenProperty? {e : Element} (h : t.IsElement i e) :
    t.takenProperty? (some i) = e.taken? := by
  obtain ⟨property, name, start, stop, isProperty, ⟨first, last, named⟩, is⟩ := h
  unfold Tree.takenProperty?
  rw [is.recordAt?]
  cases e with
  | same n =>
    cases property with
    | none => simp [Element.isRest, Element.taken?, Element.bound, identifierText?, named.recordAt?]
    | some p => cases isProperty
  | named key n =>
    cases property with
    | none => cases isProperty
    | some p =>
      obtain ⟨start, stop, key⟩ := isProperty
      simp [Element.isRest, Element.taken?, identifierText?, key.recordAt?, key.kind?]
  | keyed key n =>
    cases property with
    | none => cases isProperty
    | some p =>
      obtain ⟨e, start, stop, ⟨first, last, raw, string⟩, is⟩ := isProperty
      have bare : t.skipParentheses (some e) = some e := by
        rw [skipParentheses, skipParenthesesWithin, string.recordAt?]
      simp [Element.isRest, Element.taken?, literalText?, is.recordAt?, is.kind?, bare,
        string.kind?, string.recordAt?]
  | rest n => simp [Element.isRest, Element.taken?]

theorem IsPattern.boundNames {es : List Element} (h : t.IsPattern i es) {b : Nat}
    (bound : b ∈ t.boundNames (some i)) {x : String} (text : t.identifierText? (some b) = some x) :
    ∃ e ∈ es, x = e.bound.name.text := by
  obtain ⟨ids, start, stop, elements, is⟩ := id h
  unfold Tree.boundNames boundNamesWithin at bound
  simp only [is.kind?, is.recordAt?, NodeList.ofNodes, List.mem_flatMap, List.mem_map] at bound
  obtain ⟨_, ⟨d, member, rfl⟩, bound⟩ := bound
  have part : d ∈ t.children (some i) := by
    rw [is.children nofun]
    simpa [Record.parts, NodeList.ofNodes] using member
  obtain ⟨e, there, property, name, first, last, -, ⟨start, stop, named⟩, isElement⟩ :=
    h.children part
  have own : t.boundNamesWithin maxPatternDepth (some d) = [name] := by
    rw [maxPatternDepth, boundNamesWithin]
    simp only [isElement.kind?, isElement.recordAt?]
    rw [boundNamesWithin]
    simp only [named.kind?]
  rw [own, List.mem_singleton] at bound
  subst bound
  refine ⟨e, there, ?_⟩
  simp only [identifierText?, named.recordAt?, Option.some.injEq] at text
  exact text.symm

theorem IsDestructuring.onlyBelow (sound : t.Sound) {d : Destructuring}
    (h : t.IsDestructuring i d) : t.OnlyBelow (d.elements.map (·.bound.name.text)) i := by
  obtain ⟨pattern, value, isPattern, chain, is⟩ := h
  refine onlyBelow_of_parts (fun e x he text => ?_) fun c part => ?_
  · have inner : t.innerDeclarations i = [] := by
      simp [innerDeclarations, is.kind?]
    rw [inner, List.mem_nil_iff, or_false] at he
    simp only [declarations, is.kind?, is.recordAt?, List.mem_map] at he
    obtain ⟨b, bound, rfl⟩ := he
    obtain ⟨e, there, same⟩ := isPattern.boundNames bound text
    exact List.mem_map.2 ⟨e, there, same.symm⟩
  · have children : t.children (some i) = [pattern, value] := is.children nofun
    rw [children] at part
    rcases List.mem_cons.1 part with rfl | last
    · exact isPattern.plainBelow.onlyBelow
    · rw [List.mem_singleton.1 last]
      exact (chain.silentBelow sound).onlyBelow

theorem Chained.skipParentheses {start : Nat} {base : AsciiName} {links : List Link}
    (h : t.Chained start base links i) : t.skipParentheses (some i) = some i := by
  have other : ∃ r, t.recordAt? (some i) = some r ∧ r.shape ≠ .parenthesized := by
    cases h with
    | base is => exact ⟨_, is.recordAt?, nofun⟩
    | link inner is =>
      obtain ⟨key, -, is⟩ := is
      exact ⟨_, is.recordAt?, nofun⟩
  obtain ⟨r, record, shape⟩ := other
  rw [Tree.skipParentheses, skipParenthesesWithin, record]
  split
  · next same =>
    rw [Option.some.injEq] at same
    exact absurd (same ▸ rfl) shape
  · rfl

theorem IsDestructuring.taken (sound : t.Sound) {d : Destructuring} (h : t.IsDestructuring i d) :
    ∃ pattern value, t.children (some i) = [pattern, value] ∧ t.IsPattern pattern d.elements ∧
      t.Chained d.chainStart d.chain.base d.chain.links value ∧
      t.isDestructured (some value) = true := by
  obtain ⟨pattern, value, isPattern, chain, is⟩ := h
  refine ⟨pattern, value, is.children nofun, isPattern, chain, (isDestructured_iff sound).2 ?_⟩
  obtain ⟨ids, start, stop, -, pattern_⟩ := isPattern
  obtain ⟨n, hn, -, -, -, record⟩ := is
  exact ⟨i, n, _, value, 0, hn, record, pattern_.kind?, .self⟩

end Tree

/-! ### Violations of declarations -/

namespace Destructuring

/-- The violation of the elements of a plain chain: the first that takes out what is protected. -/
def takenViolation? (paths : ProtectedPaths) (d : Destructuring) : Option Violation :=
  d.elements.findSome? fun e => e.taken?.bind fun key =>
    if paths.contains (d.chain.text ++ "." ++ key) then
      some ⟨.destructuring, d.chain.text ++ "." ++ key, 6, 6 + byteLength d.spanChars⟩
    else none

def violationOf? (paths : ProtectedPaths) (d : Destructuring) : Option Violation :=
  if d.chain.isOptional then
    if paths.contains d.chain.text then
      some ⟨.destructuringWithOptional, d.chain.text, 6, 6 + byteLength d.spanChars⟩
    else Chain.violationOf? paths d.chainStart d.chain.base d.chain.links.dropLast
  else d.takenViolation? paths

end Destructuring

namespace Checker

variable {c : Checker} {i : Nat} {d : Destructuring}

theorem findSome?_plain (sound : c.tree.Sound) (plain : c.tree.PlainBelow i) :
    (c.tree.preorder i).findSome? c.checkNode? = none := by
  rw [List.findSome?_eq_none_iff]
  intro d there
  have below := sound.mem_preorder.1 there
  cases hn : c.tree.nodes[d]? with
  | none =>
    unfold checkNode?
    simp only [Tree.node?_some, hn]
  | some n =>
    have kind := plain d below n hn
    simp only [NodeKind.isPlain, Bool.and_eq_true, bne_iff_ne, ne_eq, Bool.not_eq_true'] at kind
    obtain ⟨⟨quiet, noProperty⟩, noElement⟩ := kind
    refine checkNode?_of_kind hn ?_ ?_
    · simp [Node.isAccess, noProperty, noElement]
    · intro declaration
      rw [declaration] at quiet
      cases quiet

theorem findSome?_elements {ids : List Nat} {es : List Element}
    (elements : List.Forall₂ c.tree.IsElement ids es) {α : Type} (f : String → Option α) :
    (ids.map some).findSome? (fun e => (c.tree.takenProperty? e).bind f) =
      es.findSome? fun e => e.taken?.bind f := by
  induction elements with
  | nil => rfl
  | cons element _ ih =>
    rw [List.map_cons, List.findSome?_cons, List.findSome?_cons, element.takenProperty?, ih]

theorem checkNode?_destructuring (sound : c.tree.Sound) (is : c.tree.IsDestructuring i d)
    (free : ∀ place, c.resolver d.chain.base.text place = .unbound)
    (short : d.chain.links.length < maxPathNodes) :
    c.checkNode? i = if d.chain.isOptional then
      if c.paths.contains d.chain.text then
        some ⟨.destructuringWithOptional, d.chain.text, 6, 6 + byteLength d.spanChars⟩
      else none
    else d.takenViolation? c.paths := by
  obtain ⟨pattern, value, ⟨ids, start, stop, elements, isPattern⟩, chain, is⟩ := is
  obtain ⟨p, path, text⟩ := globalPath?_chain chain free short (some i)
  obtain ⟨m, hm, -, -, -, -, optional⟩ := chain.node sound
  have flag : (c.tree.node? (c.tree.skipParentheses (some value))).map
      (fun v => v.hasFlag NodeFlag.optionalChain) = some d.chain.isOptional := by
    rw [chain.skipParentheses, Tree.node?_some, hm, Option.map_some, optional]
    rfl
  have optional_ : d.chain.isOptional = d.chain.links.any Link.isOptional := rfl
  obtain ⟨n, hn, kind, first, last, record⟩ := is
  have noAccess : n.isOptionalAccess = false := by
    simp [Node.isOptionalAccess, Node.isAccess, kind]
  have declaration : c.checkNode? i = c.checkDeclaration? (some i) := by
    unfold checkNode?
    simp only [Tree.node?_some, hn, noAccess, kind, Bool.false_eq_true, if_false, if_true]
  rw [declaration]
  unfold checkDeclaration?
  simp only [Tree.node?_some, hn, record, isPattern.kind?, isPattern.recordAt?, path,
    Option.bind_some, checkPattern?, first, last]
  rw [flag, Option.getD_some, text]
  change Option.map _ (if d.chain.isOptional = true then if c.paths.contains d.chain.text = true then
    _ else none else _) = _
  split
  · split <;> rfl
  · change Option.map _ ((ids.map some).findSome? _) = _
    rw [findSome?_elements elements, List.map_findSome?]
    refine congrArg (d.elements.findSome? ·) (funext fun e => ?_)
    rw [Function.comp_apply]
    cases e.taken? with
    | none => rfl
    | some key =>
      simp only [Option.bind_some]
      change Option.map _ (if c.paths.contains (d.chain.text ++ "." ++ key) = true then _ else none) =
        if c.paths.contains (d.chain.text ++ "." ++ key) = true then _ else none
      split <;> rfl

theorem findSome?_destructuring (sound : c.tree.Sound) (is : c.tree.IsDestructuringStatement i d)
    (free : ∀ place, c.resolver d.chain.base.text place = .unbound)
    (short : d.chain.links.length < maxPathNodes) :
    (c.tree.preorder i).findSome? c.checkNode? = d.violationOf? c.paths := by
  obtain ⟨declaration, list, stop, last, inner, isList, is⟩ := is
  have alone {j k start stop : Nat} {kind : NodeKind}
      (is : c.tree.Is j kind start stop (.variableList (.ofNodes [some k])))
      (plain : kind.isPlain = true) :
      (c.tree.preorder j).findSome? c.checkNode? = (c.tree.preorder k).findSome? c.checkNode? := by
    have children : c.tree.children (some j) = [k] := is.children nofun
    obtain ⟨n, hn, same, -⟩ := is
    have self : c.checkNode? j = none := by
      simp only [NodeKind.isPlain, Bool.and_eq_true, bne_iff_ne, ne_eq, Bool.not_eq_true'] at plain
      obtain ⟨⟨quiet, noProperty⟩, noElement⟩ := plain
      refine checkNode?_of_kind hn ?_ ?_
      · simp [Node.isAccess, same, noProperty, noElement]
      · rw [same]
        intro other
        rw [other] at quiet
        cases quiet
    rw [sound.preorder_eq, children, List.flatMap_singleton, List.findSome?_cons, self]
  have self := checkNode?_destructuring sound inner free short
  obtain ⟨pattern, value, children, isPattern, chain, taken⟩ := inner.taken sound
  have rest := findSome?_destructured sound chain free short taken
  rw [alone is rfl, alone isList rfl, sound.preorder_eq, children, List.findSome?_cons, self,
    List.flatMap_cons, List.flatMap_singleton, List.findSome?_append,
    findSome?_plain sound isPattern.plainBelow, Option.none_or, rest, Destructuring.violationOf?]
  cases optional : d.chain.isOptional with
  | true => cases c.paths.contains d.chain.text <;> rfl
  | false =>
    have none_ : Chain.violationOf? c.paths d.chainStart d.chain.base d.chain.links.dropLast =
        none := by
      rw [Chain.violationOf?, if_neg]
      intro some_
      obtain ⟨l, member, optional_⟩ := List.any_eq_true.1 some_
      have whole : d.chain.isOptional = true :=
        List.any_eq_true.2 ⟨l, (List.dropLast_sublist _).subset member, optional_⟩
      rw [optional] at whole
      cases whole
    rw [none_]
    cases d.takenViolation? c.paths <;> rfl

end Checker

theorem ParsedFile.findSome?_destructuring {f : ParsedFile} (sound : f.tree.Sound) {root i e : Nat}
    {row : NodeList} {fileName : String} {start stop : Nat} {d : Destructuring}
    (root_ : f.root = some root)
    (is : f.tree.Is root .sourceFile start stop (.sourceFile row (some e) fileName))
    (nodes : row.nodes = [some i]) (statement : f.tree.IsDestructuringStatement i d)
    (apart : ∀ e ∈ d.elements, e.bound.name.text ≠ d.chain.base.text)
    (short : d.chain.links.length < maxPathNodes) (paths : ProtectedPaths) :
    (f.tree.preorder i).findSome? (f.checker paths).checkNode? = d.violationOf? paths := by
  have only : f.tree.OnlyBelow (d.elements.map (·.bound.name.text)) i := by
    obtain ⟨declaration, list, stop, last, inner, isList, is⟩ := id statement
    have alone {j k start stop : Nat} {kind : NodeKind}
        (is : f.tree.Is j kind start stop (.variableList (.ofNodes [some k])))
        (quiet : kind.isDeclaring = false)
        (h : f.tree.OnlyBelow (d.elements.map (·.bound.name.text)) k) :
        f.tree.OnlyBelow (d.elements.map (·.bound.name.text)) j := by
      have children : f.tree.children (some j) = [k] := is.children nofun
      obtain ⟨n, hn, same, -⟩ := is
      refine Tree.onlyBelow_of_parts (Tree.silent_of_kind hn (same ▸ quiet)).declaresOnly ?_
      intro c part
      rw [children, List.mem_singleton] at part
      exact part ▸ h
    exact alone is rfl (alone isList rfl (inner.onlyBelow sound))
  obtain ⟨n, hn, kind, -⟩ := id is
  have other : d.chain.base.text ∉ d.elements.map (·.bound.name.text) := by
    intro member
    obtain ⟨e, there, same⟩ := List.mem_map.1 member
    exact apart e there same
  have free (place : Child) : (f.checker paths).resolver d.chain.base.text place = .unbound := by
    have undeclared := Scopes.resolver_of_undeclared sound hn kind
      (is.file_onlyBelow sound nodes only) other place
    rw [← root_] at undeclared
    exact undeclared
  exact Checker.findSome?_destructuring (c := f.checker paths) sound statement free short

theorem checkText_destructuring (paths : ProtectedPaths) (file : String) (d : Destructuring)
    (apart : ∀ e ∈ d.elements, e.bound.name.text ≠ d.chain.base.text)
    (short : d.chain.links.length < maxPathNodes) :
    checkText paths file (String.ofList d.chars) =
      (d.violationOf? paths).map (·.diagnostic file) := by
  cases some_ : paths.isEmpty with
  | true =>
    have nothing : d.violationOf? paths = none := by
      have unmatched := ProtectedPaths.match?_of_isEmpty some_
      rw [ProtectedPaths.isEmpty, List.isEmpty_iff] at some_
      have never (path : String) : paths.contains path = false := by
        rw [ProtectedPaths.contains, some_, List.contains_nil]
      have untaken : d.takenViolation? paths = none := by
        rw [Destructuring.takenViolation?, List.findSome?_eq_none_iff]
        intro e _
        simp [never]
      rw [Destructuring.violationOf?, untaken, never, Chain.violationOf?, unmatched]
      simp
    rw [checkText, some_, if_pos rfl, nothing]
    rfl
  | false =>
    have more : (Destructuring.constName.word false).kind ≠ .endOfFile := by decide +kernel
    have read (fuel : Nat) (c : Context) : Parser.Reads
        (Parser.phrase (fuel + 497 + 3) .statement) 0 (_ :: d.laterWords) c 0 _ [] _ :=
      Parser.reads_destructuringStatement (by decide) d
    have enough (fuel : Nat) : fuel + 497 + 3 = fuel + maxDepth := rfl
    simp only [enough] at read
    obtain ⟨clean, root, i, e, row, root_, nodes, is, statement⟩ :=
      Parser.parseFile_single file d.legible more
        (fun _ _ _ statement grows => statement.of_extends grows) read
    rw [d.spelled_all] at clean root_ is statement
    have sound := (parseFile_sound file (String.ofList d.chars)).tree
    rw [checkText_single clean root_ is nodes some_]
    rw [ParsedFile.findSome?_destructuring sound root_ is nodes statement apart short paths]

/-! ### What the options protect -/

def Options.ProtectsTaken (o : Options) (d : Destructuring) (e : Element) (path : String) : Prop :=
  ∃ key, e.taken? = some key ∧ path = d.chain.text ++ "." ++ key ∧ o.Protects path

theorem Options.takenViolation?_eq_some {o : Options} {d : Destructuring} {v : Violation} :
    d.takenViolation? o.protectedPaths = some v ↔ ∃ before e after path,
      d.elements = before ++ e :: after ∧ o.ProtectsTaken d e path ∧
        (∀ e' ∈ before, ∀ path', ¬o.ProtectsTaken d e' path') ∧
          v = ⟨.destructuring, path, 6, 6 + byteLength d.spanChars⟩ := by
  have one (e : Element) (v : Violation) : (e.taken?.bind fun key =>
      if o.protectedPaths.contains (d.chain.text ++ "." ++ key) then
        some (Violation.mk .destructuring (d.chain.text ++ "." ++ key) 6 (6 + byteLength d.spanChars))
      else Option.none) = some v ↔ ∃ path, o.ProtectsTaken d e path ∧
        v = ⟨.destructuring, path, 6, 6 + byteLength d.spanChars⟩ := by
    rw [Option.bind_eq_some_iff]
    constructor
    · rintro ⟨key, taken, found⟩
      split at found
      · next member =>
        rw [Option.some.injEq] at found
        exact ⟨_, ⟨key, taken, rfl, contains_iff.1 member⟩, found.symm⟩
      · cases found
    · rintro ⟨path, ⟨key, taken, rfl, protects⟩, rfl⟩
      exact ⟨key, taken, if_pos (contains_iff.2 protects)⟩
  rw [Destructuring.takenViolation?, List.findSome?_eq_some_iff]
  constructor
  · rintro ⟨before, e, after, split_, found, none_⟩
    obtain ⟨path, protects, same⟩ := (one e v).1 found
    refine ⟨before, e, after, path, split_, protects, fun e' member path' protects' => ?_, same⟩
    have found' := (one e' _).2 ⟨path', protects', rfl⟩
    rw [none_ e' member] at found'
    cases found'
  · rintro ⟨before, e, after, path, split_, protects, first, same⟩
    refine ⟨before, e, after, split_, (one e v).2 ⟨path, protects, same⟩, fun e' member => ?_⟩
    rw [Option.eq_none_iff_forall_ne_some]
    intro v' found
    obtain ⟨path', protects', -⟩ := (one e' v').1 found
    exact first e' member path' protects'

/-- A declaration that takes properties out of a chain, as a text of its own. When one of the links
is written with `?.` and the path of the chain is protected, the declaration is what is wrong. When
that path is not protected, the chain without its last link is, if it is an optional one that a
protected path covers. And when no link is written with `?.`, the declaration is what is wrong if
one of its elements takes out a protected property, and the first such element is what is named. -/
theorem checkSource_destructuring (o : Options) (file : String) (d : Destructuring)
    (short : d.chain.links.length ≤ 999)
    (apart : ∀ e ∈ d.elements, e.bound.name.text ≠ d.chain.base.text) :
    let found := checkSource o file (String.ofList d.chars)
    (d.chain.isOptional = true → o.Protects d.chain.text → ∃ r, found = some r ∧ r.code = 9102 ∧
      r.start = 6 ∧ r.length = byteLength d.spanChars ∧ r.arguments = [d.chain.text]) ∧
    (d.chain.isOptional = true → ¬o.Protects d.chain.text →
      (found.isSome = true ↔
        d.chain.init.isOptional = true ∧ ∃ p, o.Covers d.chain.init.text p) ∧
      ∀ r, found = some r → r.code = 9101 ∧ r.start = d.chainStart ∧
        r.length = byteLength d.chain.init.chars ∧
          ∃ p, o.CoversBest d.chain.init.text p ∧ r.arguments = [p]) ∧
    (d.chain.isOptional = false →
      (found.isSome = true ↔ ∃ e ∈ d.elements, ∃ path, o.ProtectsTaken d e path) ∧
      ∀ r, found = some r → r.code = 9103 ∧ r.start = 6 ∧ r.length = byteLength d.spanChars ∧
        ∃ before e after path, d.elements = before ++ e :: after ∧ o.ProtectsTaken d e path ∧
          (∀ e' ∈ before, ∀ path', ¬o.ProtectsTaken d e' path') ∧ r.arguments = [path]) := by
  intro found
  have answer : found = _ :=
    checkText_destructuring o.protectedPaths file d apart (Nat.lt_succ_of_le short)
  rw [Destructuring.violationOf?] at answer
  have span : 6 + byteLength d.spanChars - 6 = byteLength d.spanChars := Nat.add_sub_cancel_left ..
  refine ⟨fun optional protects => ?_, fun optional unprotected => ?_, fun plain => ?_⟩
  · rw [if_pos optional, if_pos (Options.contains_iff.2 protects)] at answer
    exact ⟨_, answer, rfl, rfl, span, rfl⟩
  · have open_ : o.protectedPaths.contains d.chain.text = false := by
      rw [← Bool.not_eq_true, Options.contains_iff]
      exact unprotected
    have optional_ : d.chain.links.dropLast.any Link.isOptional = d.chain.init.isOptional := rfl
    have text : Chain.textOf d.chain.base d.chain.links.dropLast = d.chain.init.text := rfl
    rw [if_pos optional, open_, if_neg Bool.false_ne_true, Chain.violationOf?, optional_, text]
      at answer
    constructor
    · rw [answer, Option.isSome_map, ← Options.match?_isSome]
      cases d.chain.init.isOptional <;> simp
    · intro r hr
      rw [answer, Option.map_eq_some_iff] at hr
      obtain ⟨v, hv, rfl⟩ := hr
      split at hv
      · obtain ⟨p, best, rfl⟩ := Option.map_eq_some_iff.1 hv
        exact ⟨rfl, rfl, Nat.add_sub_cancel_left .., p, Options.match?_eq_some.1 best, rfl⟩
      · cases hv
  · rw [plain, if_neg Bool.false_ne_true] at answer
    have named (r : Diagnostic) (hr : found = some r) : ∃ v,
        d.takenViolation? o.protectedPaths = some v ∧ v.diagnostic file = r := by
      rwa [answer, Option.map_eq_some_iff] at hr
    constructor
    · constructor
      · intro some_
        obtain ⟨r, hr⟩ := Option.isSome_iff_exists.1 some_
        obtain ⟨v, hv, -⟩ := named r hr
        obtain ⟨before, e, after, path, split_, protects, -⟩ :=
          Options.takenViolation?_eq_some.1 hv
        exact ⟨e, by simp [split_], path, protects⟩
      · rintro ⟨e, member, path, key, taken, same, protects⟩
        rw [answer, Option.isSome_map, Destructuring.takenViolation?, List.findSome?_isSome_iff]
        refine ⟨e, member, ?_⟩
        rw [taken, Option.bind_some, if_pos (Options.contains_iff.2 (same ▸ protects))]
        rfl
    · intro r hr
      obtain ⟨v, hv, rfl⟩ := named r hr
      obtain ⟨before, e, after, path, split_, protects, first, rfl⟩ :=
        Options.takenViolation?_eq_some.1 hv
      exact ⟨rfl, rfl, span, before, e, after, path, split_, protects, first, rfl⟩

/-- In `const { x, ["b c"]: y } = a;` the path `a.b c` is protected, and the second element takes it
out. -/
theorem checkSource_destructuring_keyed :
    let name (c : Char) (starts : isAsciiStart c = true)
        (free : Keyword.ofText? (String.ofList [c]) = none) : FreeName :=
      ⟨⟨c, [], starts, List.forall_mem_nil _⟩, free⟩
    let d : Destructuring :=
      ⟨[.same (name 'x' (by decide) (by decide +kernel)),
        .keyed ⟨['b', ' ', 'c'], List.forall_mem_cons.2 ⟨by decide,
          List.forall_mem_cons.2 ⟨by decide, List.forall_mem_singleton.2 (by decide)⟩⟩⟩
          (name 'y' (by decide) (by decide +kernel))],
        ⟨⟨'a', [], by decide, List.forall_mem_nil _⟩, by unfold AsciiName.IsFree; decide +kernel,
          []⟩⟩
    (d.chain.links.length ≤ 999 ∧ ∀ e ∈ d.elements, e.bound.name.text ≠ d.chain.base.text) ∧
      (checkSource ⟨some ["a.b c"]⟩ "pattern.ts"
        "const \x7b x, [\"b c\"]: y \x7d = a;").isSome = true := by
  intro name d
  have few : d.chain.links.length ≤ 999 := by decide
  have apart : ∀ e ∈ d.elements, e.bound.name.text ≠ d.chain.base.text := by decide +kernel
  refine ⟨⟨few, apart⟩, ?_⟩
  refine ((checkSource_destructuring ⟨some ["a.b c"]⟩ "pattern.ts" d few apart).2.2 rfl).1.2 ?_
  refine ⟨d.elements[1], List.getElem_mem .., "a.b c", "b c", rfl, by decide, ?_, ?_⟩
  · decide
  · decide

end PathGuard
