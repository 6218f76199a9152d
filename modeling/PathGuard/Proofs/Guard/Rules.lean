import PathGuard.Proofs.Span.Rules
/-!
# Coming back from a rule

A rule may go deeper, change the context, note problems and add nodes. Coming back it is as deep as
before and in the context from before, it was never deeper than it may, it took no problem back, and of
the nodes it changed nothing but what its own ones belong to: those that it added or that were passed to
it.
-/

namespace PathGuard

/-- How a parser comes back from a state to a later one. Only nodes that are its `own` may belong to
another construct than before. -/
structure ParserState.Guarded (own : NodeId → Prop) (s s' : ParserState) : Prop where
  depth : s'.depth = s.depth
  context : s'.context = s.context
  reached : s.deepest ≤ s'.deepest
  deepest : s'.deepest ≤ max s.deepest maxDepth
  problems : s.problems <:+ s'.problems
  tree : s.tree.Extends s'.tree
  others : ∀ i n, s.tree.nodes[i]? = some n → ¬own i → s'.tree.nodes[i]? = some n

def Owned (own : NodeId → Prop) (child : Child) : Prop := ∀ i, child = some i → own i

def OwnedAll (own : NodeId → Prop) (children : List Child) : Prop := ∀ c ∈ children, Owned own c

section

variable {own : NodeId → Prop} {child : Child} {children more : List Child}

theorem owned_none : Owned own none := nofun

theorem owned_some {i : NodeId} (h : own i) : Owned own (some i) := by
  rintro _ ⟨⟩
  exact h

namespace OwnedAll

theorem nil : OwnedAll own [] := List.forall_mem_nil _

theorem cons (h : Owned own child) (h' : OwnedAll own children) : OwnedAll own (child :: children) :=
  List.forall_mem_cons.2 ⟨h, h'⟩

theorem one (h : Owned own child) : OwnedAll own [child] := .cons h .nil

theorem append (h : OwnedAll own children) (h' : OwnedAll own more) :
    OwnedAll own (children ++ more) :=
  List.forall_mem_append.2 ⟨h, h'⟩

theorem reverse (h : OwnedAll own children) : OwnedAll own children.reverse :=
  fun c hc => h c (List.mem_reverse.1 hc)

end OwnedAll

end

namespace ParserState.Guarded

variable {own : NodeId → Prop} {s s' s'' : ParserState}

theorem refl (s : ParserState) : s.Guarded own s where
  depth := rfl
  context := rfl
  reached := Nat.le_refl _
  deepest := Nat.le_max_left _ _
  problems := List.suffix_rfl
  tree := .refl _
  others := fun _ _ hn _ => hn

theorem trans (h : s.Guarded own s') (h' : s'.Guarded own s'') : s.Guarded own s'' where
  depth := h'.depth.trans h.depth
  context := h'.context.trans h.context
  reached := Nat.le_trans h.reached h'.reached
  deepest := by
    have := h.deepest
    have := h'.deepest
    omega
  problems := h.problems.trans h'.problems
  tree := h.tree.trans h'.tree
  others := fun i n hn other => h'.others i n (h.others i n hn other) other

theorem of_tree (tree : s'.tree = s.tree) (context : s'.context = s.context)
    (depth : s'.depth = s.depth) (deepest : s'.deepest = s.deepest)
    (problems : s.problems <:+ s'.problems) : s.Guarded own s' where
  depth := depth
  context := context
  reached := Nat.le_of_eq deepest.symm
  deepest := deepest ▸ Nat.le_max_left _ _
  problems := problems
  tree := tree ▸ .refl _
  others := fun _ _ hn _ => tree ▸ hn

end ParserState.Guarded

namespace Parser

open ParserState

variable {α β σ : Type} {own : NodeId → Prop}

/-- Whether a parser comes back to where it may go from any state in which every node that is still to
be added is its own, and its answer is as `Q` says. -/
def Guards (own : NodeId → Prop) (act : Parser α) (Q : α → Prop) : Prop :=
  ∀ s : ParserState, s.depth ≤ maxDepth → (∀ i, s.tree.size ≤ i → own i) →
    s.Guarded own (act s).2 ∧ Q (act s).1

namespace Guards

variable {act : Parser α} {next : α → Parser β} {Q : α → Prop} {R : β → Prop}

/-! ### One after the other -/

theorem imp {Q' : α → Prop} (h : Guards own act Q) (weaker : ∀ a, Q a → Q' a) : Guards own act Q' :=
  fun s deep fresh => ⟨(h s deep fresh).1, weaker _ (h s deep fresh).2⟩

theorem any (h : Guards own act Q) : Guards own act fun _ => True := h.imp fun _ _ => trivial

theorem pure {a : α} (h : Q a) : Guards own (Pure.pure a) Q := fun s _ _ => ⟨.refl s, h⟩

theorem bind (h : Guards own act Q) (k : ∀ a, Q a → Guards own (next a) R) :
    Guards own (act >>= next) R := by
  intro s deep fresh
  obtain ⟨first, answer⟩ := h s deep fresh
  have room : (act s).2.depth ≤ maxDepth := first.depth ▸ deep
  have later (i : NodeId) (hi : (act s).2.tree.size ≤ i) : own i :=
    fresh i (Nat.le_trans first.tree.size_le hi)
  obtain ⟨rest, last⟩ := k (act s).1 answer (act s).2 room later
  exact ⟨first.trans rest, last⟩

theorem step (h : Guards own act fun _ => True) (k : ∀ a, Guards own (next a) R) :
    Guards own (act >>= next) R := h.bind fun a _ => k a

/-! ### Looking around -/

theorem looks (looks : Looks act) : Guards own act fun _ => True := by
  intro s _ _
  rw [looks s]
  exact ⟨.refl s, trivial⟩

theorem look (looks : Looks act) (k : ∀ a, Guards own (next a) R) :
    Guards own (act >>= next) R := (Guards.looks looks).step k

end Guards

/-! ### Problems and tokens -/

theorem Guards.closed : Closed fun act => Guards own act fun _ => True where
  pure := fun _ => .pure trivial
  bind := fun h k => .step h k

theorem Guards.moving : Moving fun act => Guards own act fun _ => True where
  toClosed := Guards.closed
  kind := .looks looks_kind
  tokenStart := .looks looks_tokenStart
  tokenEnd := .looks looks_tokenEnd
  afterLineBreak := .looks looks_afterLineBreak
  unterminated := .looks looks_unterminated
  report := by
    intro start length cause s _ _
    refine ⟨?_, trivial⟩
    change s.Guarded own (if s.lastProblem = some start then s else
      { s with lastProblem := some start, problems := ⟨start, length, cause⟩ :: s.problems })
    split
    · exact .refl s
    · exact .of_tree rfl rfl rfl rfl (List.suffix_cons _ _)
  recordReading := fun _ _ _ => ⟨.of_tree rfl rfl rfl rfl List.suffix_rfl, trivial⟩
  pass := fun _ _ _ => ⟨.of_tree rfl rfl rfl rfl List.suffix_rfl, trivial⟩

theorem guards_rescan (change : Lexer → Lexer) (cause : SyntaxError) :
    Guards own (rescan change cause) fun _ => True :=
  Guards.moving.rescan (fun _ _ _ => ⟨.of_tree rfl rfl rfl rfl List.suffix_rfl, trivial⟩) cause

theorem guards_skipAsMissing : Guards own skipAsMissing (Owned own) := by
  refine .look (looks_isAt _) fun _ => mergedUnless ?_
  exact .step (either (.pure trivial) Guards.moving.advance) fun _ => .pure owned_none

theorem guards_reportMissing (cause : SyntaxError) :
    Guards own (do reportHere cause; return none) (Owned own) :=
  (Guards.moving.reportHere cause).step fun _ => .pure owned_none

theorem guards_orDone {I : σ → Prop} {acc : σ} (kept : I acc) :
    Guards own (do if ← acceptMark .comma then return ForInStep.yield acc else return .done acc)
      fun answer => I answer.value :=
  (Guards.moving.accept _).step fun _ => either (.pure kept) (.pure kept)

/-! ### Context, depth and repetition -/

namespace Guards

variable {act : Parser α} {Q : α → Prop}

theorem within (change : Context → Context) (h : Guards own act Q) :
    Guards own (Parser.within change act) Q := by
  intro s deep fresh
  obtain ⟨inside, answer⟩ := h { s with context := change s.context } deep fresh
  exact ⟨{ inside with context := rfl }, answer⟩

theorem nested {act : Parser Child} (h : Guards own act (Owned own)) :
    Guards own (Parser.nested act) (Owned own) := by
  intro s deep fresh
  by_cases deepest : maxDepth ≤ s.depth
  · rw [run_nested_deepest deepest]
    have halted : Guards own (reportHere .nestingTooDeep >>= fun _ => skipAsMissing) (Owned own) :=
      (Guards.moving.reportHere _).step fun _ => guards_skipAsMissing
    exact halted s deep fresh
  · rw [run_nested_deeper deepest]
    have room : s.deeper.depth ≤ maxDepth := by
      change s.depth + 1 ≤ maxDepth
      omega
    obtain ⟨inside, answer⟩ := h s.deeper room fresh
    have bounded : (act s.deeper).2.deepest ≤ max (max s.deepest (s.depth + 1)) maxDepth :=
      inside.deepest
    have back : (act s.deeper).2.depth = s.depth + 1 := inside.depth
    refine ⟨{ inside with depth := ?_, reached := ?_, deepest := ?_ }, answer⟩
    · change (act s.deeper).2.depth - 1 = s.depth
      rw [back]
      rfl
    · exact Nat.le_trans (Nat.le_max_left _ _) inside.reached
    · change (act s.deeper).2.deepest ≤ max s.deepest maxDepth
      omega

theorem repeating {I : σ → Prop} {step : σ → Parser (ForInStep σ)}
    (h : ∀ acc, I acc → Guards own (step acc) fun answer => I answer.value) {acc : σ} (start : I acc) :
    Guards own (Parser.repeating step acc) I := by
  have bounded (bound : List Char) (acc : σ) :
      I acc → Guards own (repeatWithin step bound acc) I :=
    repeatWithin_induction (motive := fun acc act => I acc → Guards own act I)
      (fun _ known => .pure known) (fun acc _ later known => (h acc known).bind fun answer kept =>
        later answer kept) bound acc
  exact .look looks_textLeft fun text => bounded text acc start

end Guards

/-! ### Nodes -/

theorem guards_rowFrom {start : Nat} {nodes : List Child} {trailingComma : Bool}
    (h : OwnedAll own nodes) :
    Guards own (rowFrom start nodes trailingComma) fun row => OwnedAll own row.nodes :=
  fun s _ _ => ⟨.refl s, h⟩

/-- Where a node is added behind the others, and only own ones change what they belong to. -/
theorem guards_growing {grow : Tree → NodeId × Tree} (last : ∀ t, (grow t).1 = t.size)
    (older : ∀ t : Tree, t.Extends (grow t).2)
    (others : ∀ (t : Tree) i n, t.nodes[i]? = some n → ¬own i → (grow t).2.nodes[i]? = some n) :
    Guards own (growing grow) (Owned own) := by
  intro s _ fresh
  have added : own (grow s.tree).1 := fresh _ (Nat.le_of_eq (last s.tree).symm)
  refine ⟨?_, owned_some added⟩
  exact {
    depth := rfl
    context := rfl
    reached := Nat.le_refl _
    deepest := Nat.le_max_left _ _
    problems := List.suffix_rfl
    tree := older s.tree
    others := others s.tree }

theorem guards_addToken (k : NodeKind) (start stop : Nat) :
    Guards own (addToken k start stop) (Owned own) := by
  refine guards_growing (fun _ => rfl) (fun t => t.addToken_extends k start stop) ?_
  intro t i n hn _
  rw [Tree.addToken_nodes, Array.getElem?_push_lt (Tree.lt_size_of_node hn)]
  exact congrArg some (Array.getElem?_eq_some_iff.1 hn).2

/-- Only the parts of a new node belong to another construct than before. -/
theorem guards_growing_add (k : NodeKind) (flags start stop : Nat) {r : Record}
    (parts : OwnedAll own r.parts) :
    Guards own (growing fun tree => tree.add k flags start stop r) (Owned own) := by
  refine guards_growing (fun _ => rfl) (fun t => t.add_extends k flags start stop r) ?_
  intro t i n hn other
  rw [Tree.add_node_old hn, if_neg fun part => other (parts _ part i rfl)]

theorem guards_addSpanned (k : NodeKind) (start stop : Nat) {r : Record}
    (parts : OwnedAll own r.parts) : Guards own (addSpanned k start stop r) (Owned own) :=
  guards_growing_add _ _ _ _ parts

theorem guards_addFlagged (k : NodeKind) (flags start : Nat) {r : Record}
    (parts : OwnedAll own r.parts) : Guards own (addFlagged k flags start r) (Owned own) :=
  .look looks_previousEnd fun _ => guards_growing_add _ _ _ _ parts

theorem guards_add (k : NodeKind) (start : Nat) {r : Record} (parts : OwnedAll own r.parts) :
    Guards own (add k start r) (Owned own) := guards_addFlagged _ _ _ parts

theorem guards_addBare (k : NodeKind) (start : Nat) : Guards own (addBare k start) (Owned own) :=
  .look looks_previousEnd fun _ => guards_addToken _ _ _

end Parser

end PathGuard
