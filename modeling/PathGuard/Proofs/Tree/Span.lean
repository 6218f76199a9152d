import PathGuard.Proofs.Token.Forward
import PathGuard.Proofs.Tree.Growth
/-!
# Spans and parts of nodes

Where the parts of a construct lie in the text, and which of them have to be there. Both are said of
one node at a time and go on to hold while the tree grows.
-/

namespace PathGuard

/-- The kind of the token that lies `n` tokens behind the one at `offset`. -/
def kindBehind (text : List Char) (offset n : Nat) : TokenKind :=
  (Nat.repeat Lexer.scan (n + 1)
    { Lexer.start text true with here := Cursor.seek text offset }).kind

namespace Lexer

variable {text : List Char} {l : Lexer}

theorem kindBehind_of_sits (h : l.Sits text) (plain : ∀ k, l.kind ≠ .literal k)
    (token : l.kind.isTrivia = false) (notEnd : l.kind ≠ .endOfFile) (n : Nat) :
    kindBehind text l.first.offset (n + 1) = (Nat.repeat scan (n + 1) l).kind := by
  obtain ⟨kind, stop⟩ := h.piece plain
  obtain ⟨ch, rest, more⟩ := List.exists_cons_of_ne_nil (h.more notEnd).1
  have pieces : skipPieces l.first.rest l.first .none = (l.first, readPiece l.first, .none) := by
    rw [more, skipPieces, kind, token, if_neg Bool.false_ne_true]
  have again : ({ Lexer.start text true with here := Cursor.seek text l.first.offset } : Lexer).scan.here
      = l.here := by
    rw [h.first.seek]
    unfold scan Lexer.start
    simp only [if_true, pieces, stop]
  have onward (n : Nat) : Nat.repeat scan (n + 2)
      { Lexer.start text true with here := Cursor.seek text l.first.offset } =
        Nat.repeat scan (n + 1) l := by
    induction n with
    | zero => exact scan_congr h.text_eq.symm h.skips.symm again
    | succ n ih => exact congrArg scan ih
  exact congrArg Lexer.kind (onward n)

end Lexer

/-! ### Parts -/

namespace NodeKind

/-- What may take no characters: a hole between commas, the end of the text, and an empty text. -/
def mayBeEmpty : NodeKind → Bool
  | .omittedExpression | .token .endOfFile | .sourceFile => true
  | _ => false

end NodeKind

namespace Record

def rowPlaces (children : List Child) : List (Child × Bool) := children.map (·, true)

/-- The parts of a construct in the order of the source, each with whether it has to be there. -/
def places (k : NodeKind) : Record → List (Child × Bool)
  | identifier _ => []
  | literal _ _ => []
  | computedProperty e => [(e, true)]
  | binary l _ r => [(l, true), (r, true)]
  | unary _ e => [(e, k != .yieldExpression)]
  | call f args => (f, true) :: rowPlaces (optionalNodes args)
  | access e key _ => [(e, true), (key, true)]
  | conditional c t f => [(c, true), (t, true), (f, true)]
  | elements l _ => rowPlaces l.nodes
  | parenthesized e => [(e, true)]
  | template h l => (h, true) :: rowPlaces l.nodes
  | templateSpan e l => [(e, true), (l, true)]
  | taggedTemplate t l => [(t, true), (l, true)]
  | metaProperty _ n => [(n, true)]
  | spread e => [(e, true)]
  | propertyAssignment n e => [(n, true), (e, true)]
  | shorthandProperty n hasEquals e => [(n, true), (e, hasEquals)]
  | function m _ _ n p b _ =>
    rowPlaces (optionalNodes m) ++ (n, false) :: (rowPlaces p.nodes ++ [(b, true)])
  | parameter _ n e => [(n, true), (e, false)]
  | classLike n h l => (n, false) :: (h, false) :: rowPlaces l.nodes
  | propertyDeclaration m n e => rowPlaces (optionalNodes m) ++ [(n, true), (e, false)]
  | block l _ => rowPlaces l.nodes
  | variableList l => rowPlaces l.nodes
  | variableDeclaration n e => [(n, true), (e, false)]
  | bindingPattern l => rowPlaces l.nodes
  | bindingElement _ p n e => [(p, false), (n, true), (e, false)]
  | expressionStatement e => [(e, true)]
  | ifStatement c t e => [(c, true), (t, true), (e, false)]
  | loop i c u s =>
    if k = .doStatement then [(s, true), (c, true)]
    else [(i, false), (c, k == .whileStatement), (u, false), (s, true)]
  | forInOf _ i e s => [(i, true), (e, true), (s, true)]
  | returnOrThrow e => [(e, false)]
  | jump l => [(l, false)]
  | labeled l s => [(l, true), (s, true)]
  | switch e b => [(e, true), (b, true)]
  | caseClause e l => (e, k == .caseClause) :: rowPlaces l.nodes
  | tryStatement t c f => [(t, true), (c, false), (f, false)]
  | catchClause d b => [(d, false), (b, true)]
  | importDeclaration c s => [(c, false), (s, true)]
  | importClause n b => [(n, false), (b, false)]
  | namedBindings n l => (n, false) :: rowPlaces l.nodes
  | specifier p n => [(p, false), (n, true)]
  | exportDeclaration _ c s => [(c, false), (s, false)]
  | exportAssignment e => [(e, true)]
  | sourceFile l e _ => rowPlaces l.nodes ++ [(e, true)]

/-- Whether a construct of a kind that begins at `start` lacks nothing: the parts that have to be
there are there, variables are declared by a list of them, and what is written behind `extends` is
not left out. -/
structure Complete (text : List Char) (start : Nat) (k : NodeKind) (r : Record) : Prop where
  parts : ∀ p ∈ r.places k, p.2 = true → p.1 ≠ none
  declares : k = .variableDeclarationList → r.places k ≠ []
  heritage : ∀ name members, r = .classLike name none members →
    kindBehind text start (if name.isSome then 2 else 1) ≠ .word .extendsWord

end Record

namespace Tree

variable {t t' : Tree} {text : List Char} {n : Node}

def span? (t : Tree) (i : NodeId) : Option (Nat × Nat) :=
  t.nodes[i]?.map fun n => (n.start, n.stop)

def partsOf (t : Tree) (n : Node) : List NodeId :=
  match t.record? n with
  | some r => (r.places n.kind).filterMap Prod.fst
  | none => []

theorem places_parts (k : NodeKind) (r : Record)
    (other : ∀ i c u s, r = .loop i c u s → k ≠ .doStatement) :
    (r.places k).filterMap Prod.fst = r.parts.filterMap id := by
  have row (children : List Child) :
      (Record.rowPlaces children).filterMap Prod.fst = children.filterMap id := by
    simp [Record.rowPlaces, List.filterMap_map]
  cases r
  case loop i c u s =>
    rw [Record.places, if_neg (other i c u s rfl)]
    rfl
  all_goals first
    | rfl
    | simp only [Record.places, Record.parts, List.filterMap_append, List.filterMap_cons, row] <;> rfl

theorem children_of_node {i : Nat} (h : t.nodes[i]? = some n) :
    t.children (some i) = t.partsOf n := by
  unfold children partsOf
  simp only [node?_some, h]
  split
  · next kind record =>
    rw [record]
    dsimp only
    rw [Record.places, if_pos kind]
    rfl
  · next r record other =>
    rw [record]
    refine (places_parts _ _ fun i c u s loop kind => ?_).symm
    exact other i c u s kind loop
  · next record =>
    rw [record]

theorem children_of_none {i : Nat} (h : t.nodes[i]? = none) : t.children (some i) = [] := by
  unfold children
  simp only [node?_some, h]

/-! ### Nodes in place -/

/-- Whether a node has the record of its kind, and lies in the text around its parts, which lie
behind each other. -/
structure Settled (t : Tree) (text : List Char) (n : Node) : Prop where
  formed : n.kind.shape? = none ∨ ∃ r, t.record? n = some r
  start : IsBoundary text n.start
  stop : IsBoundary text n.stop
  inside : ∀ c ∈ t.partsOf n, ∃ m, t.nodes[c]? = some m ∧ n.start ≤ m.start ∧ m.stop ≤ n.stop
  sorted : ((t.partsOf n).filterMap t.span?).Pairwise fun a b => a.2 ≤ b.1

/-- Whether a node takes characters, if its kind is one that has to, and its record lacks nothing. -/
structure Whole (t : Tree) (text : List Char) (n : Node) : Prop where
  full : n.kind.mayBeEmpty = false → n.start < n.stop
  complete : ∀ r, t.record? n = some r → r.Complete text n.start n.kind

/-- Whether all nodes lie in the text, and where it holds that nothing is wrong, lack nothing. -/
def Placed (t : Tree) (text : List Char) (calm : Prop) : Prop :=
  ∀ (i : Nat) (n : Node), t.nodes[i]? = some n → t.Settled text n ∧ (calm → t.Whole text n)

theorem span?_of_node {i : Nat} (h : t.nodes[i]? = some n) : t.span? i = some (n.start, n.stop) := by
  rw [span?, h, Option.map_some]

theorem span?_of_extends (h : t.Extends t') {i : Nat} (hn : t.nodes[i]? = some n) :
    t'.span? i = t.span? i := by
  obtain ⟨p, hp⟩ := h.node hn
  rw [span?_of_node hn, span?_of_node hp]

theorem spans_of_extends (h : t.Extends t') {cs : List NodeId}
    (there : ∀ c ∈ cs, ∃ m, t.nodes[c]? = some m) : cs.filterMap t'.span? = cs.filterMap t.span? :=
  List.filterMap_congr fun c hc => span?_of_extends h (there c hc).choose_spec

theorem Settled.record? (hs : t.Settled text n) (h : t.Extends t') :
    t'.record? n = t.record? n := by
  rcases hs.formed with bare | ⟨r, hr⟩
  · simp only [Tree.record?, bare]
  · rw [hr, h.record? hr]

theorem Settled.partsOf (hs : t.Settled text n) (h : t.Extends t') (p : Child) :
    t'.partsOf { n with parent := p } = t.partsOf n := by
  unfold Tree.partsOf
  rw [record?_parent, hs.record? h]

theorem Settled.of_extends (hs : t.Settled text n) (h : t.Extends t') (p : Child) :
    t'.Settled text { n with parent := p } where
  formed := hs.formed.imp id (Exists.imp fun _ => h.record?)
  start := hs.start
  stop := hs.stop
  inside := by
    rw [hs.partsOf h]
    intro c hc
    obtain ⟨m, hm, within⟩ := hs.inside c hc
    obtain ⟨q, hq⟩ := h.node hm
    exact ⟨_, hq, within⟩
  sorted := by
    rw [hs.partsOf h, spans_of_extends h fun c hc => (hs.inside c hc).imp fun _ found => found.1]
    exact hs.sorted

theorem Whole.of_extends (hw : t.Whole text n) (hs : t.Settled text n) (h : t.Extends t')
    (p : Child) : t'.Whole text { n with parent := p } where
  full := hw.full
  complete := by
    intro r hr
    rw [record?_parent, hs.record? h] at hr
    exact hw.complete r hr

/-! ### Adding nodes in place -/

theorem node_of_grown {added : Node} (h : t.Extends t') (size : t'.size = t.size + 1)
    (last : ∃ p, t'.nodes[t.size]? = some { added with parent := p }) {i : Nat}
    (hn : t'.nodes[i]? = some n) :
    (∃ m p, t.nodes[i]? = some m ∧ n = { m with parent := p }) ∨
      ∃ p, n = { added with parent := p } := by
  have inside := lt_size_of_node hn
  by_cases old : i < t.size
  · have before : t.nodes[i]? = some t.nodes[i] := Array.getElem?_eq_getElem old
    obtain ⟨p, hp⟩ := h.node before
    exact .inl ⟨_, p, before, Option.some.inj (hn.symm.trans hp)⟩
  · obtain rfl : i = t.size := by omega
    obtain ⟨p, hp⟩ := last
    exact .inr ⟨p, Option.some.inj (hn.symm.trans hp)⟩

theorem Placed.grow {calm : Prop} (hp : t.Placed text calm) (added : Node) (h : t.Extends t')
    (size : t'.size = t.size + 1)
    (last : ∃ p, t'.nodes[t.size]? = some { added with parent := p })
    (settled : ∀ p, t'.Settled text { added with parent := p })
    (whole : calm → ∀ p, t'.Whole text { added with parent := p }) : t'.Placed text calm := by
  intro i n hn
  rcases node_of_grown h size last hn with ⟨m, p, old, rfl⟩ | ⟨p, rfl⟩
  · obtain ⟨before, complete⟩ := hp i m old
    exact ⟨before.of_extends h p, fun clean => (complete clean).of_extends before h p⟩
  · exact ⟨settled p, fun clean => whole clean p⟩

theorem Placed.addToken {calm : Prop} (hp : t.Placed text calm) {k : NodeKind} {start stop : Nat}
    (bare : k.shape? = none) (hs : IsBoundary text start) (he : IsBoundary text stop)
    (full : calm → k.mayBeEmpty = false → start < stop) :
    (t.addToken k start stop).2.Placed text calm := by
  have parts (p : Child) : (t.addToken k start stop).2.partsOf ⟨k, 0, start, stop, none, p⟩ = [] := by
    simp only [partsOf, record?, bare]
  refine hp.grow ⟨k, 0, start, stop, none, none⟩ (addToken_extends t k start stop) ?_ ?_
    (fun p => ⟨.inl bare, hs, he, ?_, ?_⟩) fun clean p => ⟨full clean, ?_⟩
  · rw [size, addToken_nodes, Array.size_push]
    rfl
  · exact ⟨none, Array.getElem?_push_size⟩
  · rw [parts]
    simp
  · rw [parts]
    exact .nil
  · intro r hr
    simp [record?, bare] at hr

theorem add_pools_size (pools : t.pools.size = Shape.count) {k : NodeKind} {flags start stop : Nat}
    {r : Record} : (t.add k flags start stop r).2.pools.size = Shape.count := by
  rw [add_pools, Array.size_modify, pools]

theorem exists_node_of_add (t : Tree) (k : NodeKind) (flags start stop : Nat) (r : Record) :
    ∃ p, (t.add k flags start stop r).2.nodes[t.size]? =
      some ⟨k, flags, start, stop, some (t.nextSlot r.shape), p⟩ := by
  rw [add_nodes, getElem?_adopt, size, Array.getElem?_push_size, Option.map_some]
  split
  · exact ⟨_, rfl⟩
  · exact ⟨none, rfl⟩

structure Fits (t : Tree) (text : List Char) (k : NodeKind) (start stop : Nat) (r : Record) :
    Prop where
  shape : k.shape? = some r.shape
  begins : IsBoundary text start
  ends : IsBoundary text stop
  inside : ∀ c ∈ (r.places k).filterMap Prod.fst,
    ∃ m, t.nodes[c]? = some m ∧ start ≤ m.start ∧ m.stop ≤ stop
  sorted : (((r.places k).filterMap Prod.fst).filterMap t.span?).Pairwise fun a b => a.2 ≤ b.1

theorem Placed.add {calm : Prop} (hp : t.Placed text calm) (pools : t.pools.size = Shape.count)
    {k : NodeKind} {start stop : Nat} {r : Record} (flags : Nat)
    (fits : t.Fits text k start stop r) (full : calm → k.mayBeEmpty = false → start < stop)
    (complete : calm → r.Complete text start k) :
    (t.add k flags start stop r).2.Placed text calm := by
  have grows := add_extends t k flags start stop r
  have record (p : Child) : (t.add k flags start stop r).2.record?
      ⟨k, flags, start, stop, some (t.nextSlot r.shape), p⟩ = some r := by
    simp only [record?, fits.shape]
    exact add_pooled_new pools k flags start stop r
  have parts (p : Child) : (t.add k flags start stop r).2.partsOf
      ⟨k, flags, start, stop, some (t.nextSlot r.shape), p⟩ = (r.places k).filterMap Prod.fst := by
    rw [partsOf, record]
  refine hp.grow ⟨k, flags, start, stop, some (t.nextSlot r.shape), none⟩ grows
    (add_size ..) (exists_node_of_add ..)
    (fun p => ⟨.inr ⟨r, record p⟩, fits.begins, fits.ends, ?_, ?_⟩)
    fun clean p => ⟨full clean, ?_⟩
  · rw [parts]
    intro c hc
    obtain ⟨m, hm, within⟩ := fits.inside c hc
    obtain ⟨q, hq⟩ := grows.node hm
    exact ⟨_, hq, within⟩
  · rw [parts, spans_of_extends grows fun c hc => (fits.inside c hc).imp fun _ found => found.1]
    exact fits.sorted
  · intro r' hr
    obtain rfl : r = r' := Option.some.inj ((record p).symm.trans hr)
    exact complete clean

end Tree

end PathGuard
