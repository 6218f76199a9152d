import Mathlib.Data.List.ReduceOption
import PathGuard.Proofs.Ban.Bare
import PathGuard.Proofs.Ban.Blind
/-!
# Laws of parsing under the ban on `in`

A parser that sees the ban gives itself away: where it does not do the same with and without the ban,
the parts that it made without the ban have a bare `in`. Under the ban it makes none. Both follow from
the text of a rule, once it is said which parts the rule holds at each place.
-/

namespace PathGuard

/-- A part that a parser holds, and whether it may be a block. -/
structure Spot where
  child : Child
  block : Bool

namespace Spot

/-- Whether a part has a bare `in`. -/
def Bare (t : Tree) (p : Spot) : Prop :=
  ∃ i, p.child = some i ∧ t.HasBare i ∧ (p.block = false → t.kind? (some i) ≠ some .block)

def Clear (t : Tree) (p : Spot) : Prop := ∀ i, p.child = some i → t.Clear i

/-- An expression, or anything else that is no block. -/
def value (child : Child) : List Spot := [⟨child, false⟩]

/-- A statement, or anything else that may be a block. -/
def construct (child : Child) : List Spot := [⟨child, true⟩]

def constructs (children : List Child) : List Spot := children.map (⟨·, true⟩)

theorem constructs_child (children : List Child) :
    (constructs children).map Spot.child = children := by
  simp [constructs, Function.comp_def]

variable {t t' : Tree} {p : Spot}

theorem Bare.of_extends (h : p.Bare t) (e : t.Extends t') : p.Bare t' := by
  obtain ⟨i, child, bare, block⟩ := h
  refine ⟨i, child, bare.of_extends e, fun known now => block known ?_⟩
  obtain ⟨n, hn⟩ := bare.node
  obtain ⟨q, hq⟩ := e.node hn
  rw [Tree.kind?_of_node hq] at now
  rw [Tree.kind?_of_node hn]
  exact now

theorem Clear.of_extends (h : p.Clear t) (e : t.Extends t') : p.Clear t' :=
  fun i child => (h i child).of_extends e

end Spot

namespace Tree

/-- Whether one of some parts has a bare `in`. -/
def AnyBare (t : Tree) (P : List Spot) : Prop := ∃ p ∈ P, p.Bare t

def AllClear (t : Tree) (P : List Spot) : Prop := ∀ p ∈ P, p.Clear t

variable {t t' : Tree} {P Q : List Spot}

theorem AnyBare.of_extends (h : t.AnyBare P) (e : t.Extends t') : t'.AnyBare P := by
  obtain ⟨p, hp, bare⟩ := h
  exact ⟨p, hp, bare.of_extends e⟩

theorem AllClear.of_extends (h : t.AllClear P) (e : t.Extends t') : t'.AllClear P :=
  fun p hp => (h p hp).of_extends e

theorem anyBare_append : t.AnyBare (P ++ Q) ↔ t.AnyBare P ∨ t.AnyBare Q := by
  constructor
  · rintro ⟨p, hp, bare⟩
    rcases List.mem_append.1 hp with left | right
    · exact .inl ⟨p, left, bare⟩
    · exact .inr ⟨p, right, bare⟩
  · rintro (⟨p, hp, bare⟩ | ⟨p, hp, bare⟩)
    · exact ⟨p, List.mem_append_left _ hp, bare⟩
    · exact ⟨p, List.mem_append_right _ hp, bare⟩

theorem allClear_append : t.AllClear (P ++ Q) ↔ t.AllClear P ∧ t.AllClear Q := by
  constructor
  · intro h
    exact ⟨fun p hp => h p (List.mem_append_left _ hp), fun p hp => h p (List.mem_append_right _ hp)⟩
  · rintro ⟨left, right⟩ p hp
    rcases List.mem_append.1 hp with hp | hp
    · exact left p hp
    · exact right p hp

end Tree

namespace Spot

/-- Whether some parts can be told as others: a part that is there is among the others, and these
are among the parts. -/
structure Covers (P Q : List Spot) : Prop where
  kept : ∀ p ∈ P, p.child = none ∨
    ∃ q ∈ Q, q.child = p.child ∧ (q.block = false → p.block = false)
  found : ∀ q ∈ Q, q.child = none ∨ ∃ p ∈ P, p.child = q.child

namespace Covers

variable {t : Tree} {P Q : List Spot} {child : Child}

theorem refl (P : List Spot) : Covers P P :=
  ⟨fun p hp => .inr ⟨p, hp, rfl, id⟩, fun p hp => .inr ⟨p, hp, rfl⟩⟩

theorem bare (h : Covers P Q) (bare : t.AnyBare P) : t.AnyBare Q := by
  obtain ⟨p, hp, i, child, hasBare, block⟩ := bare
  rcases h.kept p hp with none_ | ⟨q, hq, same, weaker⟩
  · rw [child] at none_
    cases none_
  · exact ⟨q, hq, i, same.trans child, hasBare, fun known => block (weaker known)⟩

theorem clear (h : Covers P Q) (clear : t.AllClear P) : t.AllClear Q := by
  intro q hq i child
  rcases h.found q hq with none_ | ⟨p, hp, same⟩
  · rw [child] at none_
    cases none_
  · exact clear p hp i (same.trans child)

theorem weaken : Covers (value child) (construct child) := by
  constructor
  · intro p hp
    obtain rfl := List.mem_singleton.1 hp
    exact .inr ⟨_, List.mem_singleton_self _, rfl, nofun⟩
  · intro q hq
    obtain rfl := List.mem_singleton.1 hq
    exact .inr ⟨_, List.mem_singleton_self _, rfl⟩

theorem of_none (block : Bool) : Covers [] [⟨none, block⟩] := ⟨by simp, by simp⟩

theorem of_isNone (h : child.isNone = true) {block block' : Bool} :
    Covers [⟨child, block⟩] [⟨none, block'⟩] := by
  obtain rfl := Option.isNone_iff_eq_none.1 h
  exact ⟨by simp, by simp⟩

theorem drop (h : child.isNone = true) {block : Bool} : Covers (P ++ [⟨child, block⟩]) P := by
  obtain rfl := Option.isNone_iff_eq_none.1 h
  refine ⟨fun p hp => ?_, fun q hq => .inr ⟨q, List.mem_append_left _ hq, rfl⟩⟩
  rcases List.mem_append.1 hp with old | new
  · exact .inr ⟨p, old, rfl, id⟩
  · obtain rfl := List.mem_singleton.1 new
    exact .inl rfl

theorem pad (block : Bool) : Covers P (P ++ [⟨none, block⟩]) := by
  refine ⟨fun p hp => .inr ⟨p, List.mem_append_left _ hp, rfl, id⟩, fun q hq => ?_⟩
  rcases List.mem_append.1 hq with old | new
  · exact .inr ⟨q, old, rfl⟩
  · obtain rfl := List.mem_singleton.1 new
    exact .inl rfl

theorem swap : Covers (P ++ Q) (Q ++ P) := by
  have same (p : Spot) : p ∈ P ++ Q ↔ p ∈ Q ++ P := by simp [or_comm]
  exact ⟨fun p hp => .inr ⟨p, (same p).1 hp, rfl, id⟩, fun p hp => .inr ⟨p, (same p).2 hp, rfl⟩⟩

theorem push {children : List Child} {block : Bool} :
    Covers (constructs children ++ [⟨child, block⟩]) (constructs (child :: children)) := by
  refine ⟨fun p hp => .inr ?_, fun q hq => .inr ?_⟩
  · rcases List.mem_append.1 hp with old | new
    · exact ⟨p, List.mem_cons_of_mem _ old, rfl, id⟩
    · obtain rfl := List.mem_singleton.1 new
      exact ⟨_, List.mem_cons_self .., rfl, nofun⟩
  · rcases List.mem_cons.1 hq with rfl | old
    · exact ⟨_, List.mem_concat_self, rfl⟩
    · exact ⟨q, List.mem_append_left _ old, rfl⟩

theorem reverse {children : List Child} :
    Covers (P ++ constructs children) (P ++ constructs children.reverse) := by
  have same (p : Spot) : p ∈ P ++ constructs children ↔ p ∈ P ++ constructs children.reverse := by
    simp [constructs]
  exact ⟨fun p hp => .inr ⟨p, (same p).1 hp, rfl, id⟩, fun p hp => .inr ⟨p, (same p).2 hp, rfl⟩⟩

end Covers

end Spot

namespace Parser

open ParserState Spot

variable {α β σ : Type}

/-- What a parser that holds the parts `P` and then the parts `Q` does in a state: it keeps what is
there, a part with a bare `in` is among the new ones or in them, it is blind to the ban unless one of
these has a bare `in`, and where there is a ban it makes no bare `in`. -/
structure MindsFrom (s : ParserState) (P : List Spot) (act : Parser α) (Q : α → List Spot) :
    Prop where
  kept : s.Kept (act s).2
  bare : s.tree.AnyBare P → (act s).2.tree.AnyBare (Q (act s).1)
  same : act s.banned = ((act s).1, (act s).2.banned) ∨ (act s).2.tree.AnyBare (Q (act s).1)
  clear : s.context.forbidsIn = true → s.tree.AllClear P → (act s).2.tree.AllClear (Q (act s).1)

/-- The same in any state. -/
def Minds (P : List Spot) (act : Parser α) (Q : α → List Spot) : Prop :=
  ∀ s : ParserState, s.tree.pools.size = Shape.count → MindsFrom s P act Q

/-- Whether what a parser makes has a bare `in`, wherever it begins. -/
def Exposes (act : Parser α) (Q : α → List Spot) : Prop :=
  ∀ s : ParserState, s.tree.pools.size = Shape.count → (act s).2.tree.AnyBare (Q (act s).1)

theorem Exposes.bind {act : Parser α} {next : α → Parser β} {R : β → List Spot} (h : Keeps act)
    (k : ∀ a, Exposes (next a) R) : Exposes (act >>= next) R :=
  fun s pools => k _ _ (h s pools).pools

namespace Minds

variable {P : List Spot} {act : Parser α} {next : α → Parser β} {Q : α → List Spot}
  {R : β → List Spot}

theorem keeps (h : Minds P act Q) : Keeps act := fun s pools => (h s pools).kept

theorem imp {Q' : α → List Spot} (h : Minds P act Q) (covers : ∀ a, Covers (Q a) (Q' a)) :
    Minds P act Q' := by
  intro s pools
  obtain ⟨kept, bare, same, clear⟩ := h s pools
  exact ⟨kept, fun old => (covers _).bare (bare old), same.imp id (covers _).bare,
    fun ban old => (covers _).clear (clear ban old)⟩

theorem given {P' : List Spot} (h : Minds P act Q) (covers : Covers P' P) : Minds P' act Q := by
  intro s pools
  obtain ⟨kept, bare, same, clear⟩ := h s pools
  exact ⟨kept, fun old => bare (covers.bare old), same, fun ban old => clear ban (covers.clear old)⟩

/-- What is no block may stand where a block may. -/
theorem construct {act : Parser Child} (h : Minds P act value) : Minds P act Spot.construct :=
  h.imp fun _ => .weaken

theorem pure {a : α} (covers : Covers P (Q a)) : Minds P (Pure.pure a) Q :=
  fun _ pools => ⟨.refl pools, covers.bare, .inl rfl, fun _ => covers.clear⟩

/-- What is held besides is left alone. -/
theorem frame (Θ : List Spot) (h : Minds P act Q) : Minds (Θ ++ P) act fun a => Θ ++ Q a := by
  intro s pools
  obtain ⟨kept, bare, same, clear⟩ := h s pools
  refine ⟨kept, fun old => ?_, ?_, fun ban old => ?_⟩
  · rw [Tree.anyBare_append] at old ⊢
    exact old.imp (·.of_extends kept.tree) bare
  · rw [Tree.anyBare_append]
    exact same.imp id .inr
  · rw [Tree.allClear_append] at old ⊢
    exact ⟨old.1.of_extends kept.tree, clear ban old.2⟩

theorem bind (h : Minds P act Q) (k : ∀ a, Minds (Q a) (next a) R) : Minds P (act >>= next) R := by
  intro s pools
  obtain ⟨kept, bare, same, clear⟩ := h s pools
  obtain ⟨kept', bare', same', clear'⟩ := k (act s).1 (act s).2 kept.pools
  refine ⟨kept.trans kept', fun old => bare' (bare old), ?_, fun ban old => ?_⟩
  · change next (act s.banned).1 (act s.banned).2 = _ ∨ _
    rcases same with same | bare
    · rw [same]
      exact same'
    · exact .inr (bare' bare)
  · exact clear' (by rw [kept.context, ban]) (clear ban old)

/-- A parser that starts from nothing adds what it makes to what is held. -/
theorem call (h : Minds [] act Q) (k : ∀ a, Minds (P ++ Q a) (next a) R) :
    Minds P (act >>= next) R := by
  have framed := h.frame P
  rw [List.append_nil] at framed
  exact framed.bind k

theorem upon {Θ : List Spot} (h : Minds P act Q) (k : ∀ a, Minds (Θ ++ Q a) (next a) R) :
    Minds (Θ ++ P) (act >>= next) R := (h.frame Θ).bind k

theorem of_neutral (h : Neutral act)
    (clear : ∀ s : ParserState, s.tree.pools.size = Shape.count →
      (act s).2.tree.AllClear (Q (act s).1)) : Minds [] act Q := by
  intro s pools
  refine ⟨h.keeps s pools, ?_, .inl (h.blind s), fun _ _ => clear s pools⟩
  rintro ⟨p, hp, -⟩
  cases hp

theorem neutral (h : Neutral act) (k : ∀ a, Minds P (next a) R) : Minds P (act >>= next) R := by
  have nothing : Minds [] act fun _ => [] := .of_neutral h fun _ _ => nofun
  exact nothing.call fun a => (k a).given (by rw [List.append_nil]; exact .refl P)

theorem without {block : Bool} {join : Child → Parser β}
    (k : ∀ a, Minds (P ++ [⟨a, block⟩]) (join a) R) : Minds P (Pure.pure none >>= join) R :=
  (k none).given (.pad block)

/-! ### Context, depth and repetition -/

theorem context {next : Context → Parser β} (unseen : ∀ c : Context, next c.forbidIn = next c)
    (k : ∀ c, Minds P (next c) R) : Minds P (Parser.context >>= next) R := by
  intro s pools
  obtain ⟨kept, bare, same, clear⟩ := k s.context s pools
  refine ⟨kept, bare, ?_, clear⟩
  change next s.context.forbidIn s.banned = _ ∨ _
  rw [unseen]
  exact same

/-- What asks for the ban: under it, the parser minds the ban already, and without it, what is made
has a bare `in`. -/
theorem ban {next : Context → Parser β}
    (shut : ∀ c : Context, c.forbidsIn = true → Minds P (next c) R)
    (opened : ∀ c : Context, c.forbidsIn = false → Keeps (next c) ∧ Exposes (next c) R) :
    Minds P (Parser.context >>= next) R := by
  intro s pools
  cases forbids : s.context.forbidsIn with
  | true =>
    obtain ⟨kept, bare, -, clear⟩ := shut s.context forbids s pools
    refine ⟨kept, bare, .inl ?_, clear⟩
    have after : (next s.context s).2.banned = (next s.context s).2 :=
      banned_eq (by rw [kept.context, forbids])
    rw [banned_eq forbids]
    change next s.context s = ((next s.context s).1, (next s.context s).2.banned)
    rw [after]
    rfl
  | false =>
    obtain ⟨keeps, exposed⟩ := opened s.context forbids
    have bare := exposed s pools
    exact ⟨keeps s pools, fun _ => bare, .inr bare, fun ban => absurd (forbids.symm.trans ban) nofun⟩

theorem within {change : Context → Context}
    (leaves : ∀ c : Context, change c.forbidIn = (change c).forbidIn) (h : Minds P act Q) :
    Minds P (Parser.within change act) Q := by
  intro s pools
  obtain ⟨kept, bare, same, clear⟩ := h { s with context := change s.context } pools
  refine ⟨⟨kept.tree, kept.pools, rfl⟩, bare, ?_, fun ban => clear ?_⟩
  · have entered : ({ s.banned with context := change s.context.forbidIn } : ParserState) =
        ParserState.banned { s with context := change s.context } := by
      rw [leaves]
      rfl
    change ((act { s.banned with context := change s.context.forbidIn }).1,
      { (act { s.banned with context := change s.context.forbidIn }).2 with
        context := s.context.forbidIn }) = _ ∨ _
    rw [entered]
    refine same.imp (fun same => ?_) id
    rw [same]
    rfl
  · have still : s.context.forbidIn = s.context := by
      rw [Context.forbidIn, ← ban]
    change (change s.context).forbidsIn = true
    rw [← still, leaves]
    rfl

theorem nested {act : Parser Child} {block : Bool} (h : Minds [] act fun c => [⟨c, block⟩]) :
    Minds [] (Parser.nested act) fun c => [⟨c, block⟩] := by
  intro s pools
  by_cases deepest : maxDepth ≤ s.depth
  · have halt : Minds [] (reportHere .nestingTooDeep >>= fun _ => Parser.skipAsMissing)
        fun c => [⟨c, block⟩] := by
      refine .neutral (Neutral.moving.reportHere _) fun _ =>
        .neutral (Neutral.moving.isAt _) fun ended => ?_
      exact mergedUnless <| .neutral (either (.pure _) Neutral.moving.advance) fun _ =>
        .pure (.of_none block)
    obtain ⟨kept, bare, same, clear⟩ := halt s pools
    have here : Parser.nested act s = _ := run_nested_deepest deepest
    have banned : Parser.nested act s.banned = _ := run_nested_deepest deepest
    rw [← here] at kept bare same clear
    rw [← banned] at same
    exact ⟨kept, bare, same, clear⟩
  · obtain ⟨kept, bare, same, clear⟩ := h s.deeper pools
    have there : Parser.nested act s = _ := run_nested_deeper deepest
    have banned : Parser.nested act s.banned = _ := run_nested_deeper deepest
    refine ⟨?_, ?_, ?_, ?_⟩
    · rw [there]
      exact ⟨kept.tree, kept.pools, kept.context⟩
    · rw [there]
      exact bare
    · rw [banned, there]
      refine same.imp (fun same => ?_) id
      change act s.banned.deeper = _ at same
      rw [same]
      rfl
    · rw [there]
      exact clear

/-- Where every step keeps the parts that belong to the answer so far, so does the whole. -/
theorem repeating {I : σ → List Spot} {step : σ → Parser (ForInStep σ)}
    (h : ∀ acc, Minds (I acc) (step acc) fun answer => I answer.value) (acc : σ) :
    Minds (I acc) (Parser.repeating step acc) I := by
  have bounded (bound : List Char) (acc : σ) : Minds (I acc) (repeatWithin step bound acc) I :=
    repeatWithin_induction (motive := fun acc act => Minds (I acc) act I) (fun _ => pure (.refl _))
      (fun acc _ later => (h acc).bind later) bound acc
  exact .neutral neutral_textLeft fun text => bounded text acc

theorem rowFrom {start : Nat} {children : List Child} {trailingComma : Bool} :
    Minds (constructs children) (Parser.rowFrom start children.reverse trailingComma)
      fun list => constructs list.nodes :=
  fun _ pools => ⟨.refl pools, Covers.bare (P := [] ++ _) .reverse, .inl rfl,
    fun _ => Covers.clear (P := [] ++ _) .reverse⟩

theorem row {step : List Child → Parser (ForInStep (List Child))}
    (h : ∀ acc, Minds (constructs acc) (step acc) fun answer => constructs answer.value) :
    Minds [] (Parser.repeating step []) constructs :=
  repeating (I := constructs) h []

end Minds

/-! ### Nodes -/

/-- Whether the parts that are held are those that a node holds and reaches. -/
structure Gathers (P : List Spot) (k : NodeKind) (r : Record) : Prop where
  bare : ∀ {t : Tree}, t.AnyBare P → ∃ j, some j ∈ t.reached k r ∧ t.HasBare j
  clear : ∀ {t : Tree}, t.AllClear P → ∀ j, some j ∈ t.reached k r → t.Clear j
  other : r.isIn = false

theorem Gathers.of_parts {P : List Spot} {k : NodeKind} {r : Record} (other : r.isIn = false)
    (parts : ∀ t : Tree, (t.reached k r).reduceOption = (P.map Spot.child).reduceOption) :
    Gathers P k r where
  bare := by
    rintro t ⟨p, hp, i, child, bare, -⟩
    have mem : p.child ∈ P.map Spot.child := List.mem_map_of_mem hp
    rw [child, ← List.reduceOption_mem_iff, ← parts t, List.reduceOption_mem_iff] at mem
    exact ⟨i, mem, bare⟩
  clear := by
    intro t clear j mem
    rw [← List.reduceOption_mem_iff, parts t, List.reduceOption_mem_iff] at mem
    obtain ⟨p, hp, child⟩ := List.mem_map.1 mem
    exact clear p hp j child
  other := other

theorem Exposes.addIn {left right : Child} {flags start : Nat} :
    Exposes (addFlagged .binaryExpression flags start (.binary left (.token (.word .inWord)) right))
      value := by
  intro s pools
  have holds := Tree.add_bears (k := .binaryExpression)
    (r := .binary left (.token (.word .inWord)) right) pools rfl flags start s.previousEnd
  refine ⟨_, List.mem_singleton_self _, s.tree.size, rfl, .operator holds rfl, fun _ now => ?_⟩
  obtain ⟨n, hn, kind, -⟩ := holds
  have block := (Tree.kind?_of_node hn).symm.trans now
  rw [kind] at block
  cases block

namespace Minds

variable {P : List Spot} {k : NodeKind} {r : Record} {flags start stop : Nat} {block : Bool}

theorem addRecord (shape : k.shape? = some r.shape) (kind : block = false → k ≠ .block)
    (gathers : Gathers P k r) :
    Minds P (growing fun tree => tree.add k flags start stop r) fun c => [⟨c, block⟩] := by
  intro s pools
  have extends_ := s.tree.add_extends k flags start stop r
  have holds := Tree.add_bears pools shape flags start stop
  have sizes : (s.tree.add k flags start stop r).2.pools.size = Shape.count := by
    rw [Tree.add_pools, Array.size_modify, pools]
  refine ⟨⟨extends_, sizes, rfl⟩, fun old => ?_, .inl rfl, fun _ old => ?_⟩
  · obtain ⟨j, mem, bare⟩ := gathers.bare (old.of_extends extends_)
    refine ⟨_, List.mem_singleton_self _, s.tree.size, rfl, .part holds mem bare, fun known now => ?_⟩
    obtain ⟨n, hn, found, -⟩ := holds
    have kind' := (Tree.kind?_of_node hn).symm.trans now
    exact kind known (found.symm.trans (Option.some.inj kind'))
  · intro p hp i child
    obtain rfl := List.mem_singleton.1 hp
    obtain rfl : s.tree.size = i := Option.some.inj child
    exact .construct holds gathers.other (gathers.clear (old.of_extends extends_))

theorem addGathering (shape : k.shape? = some r.shape) (kind : block = false → k ≠ .block)
    (gathers : Gathers P k r) :
    Minds P (Parser.addFlagged k flags start r) fun c => [⟨c, block⟩] :=
  .neutral neutral_previousEnd fun _ => addRecord shape kind gathers

theorem add (shape : k.shape? = some r.shape) (kind : block = false → k ≠ .block)
    (other : r.isIn = false)
    (parts : ∀ t : Tree, (t.reached k r).reduceOption = (P.map Spot.child).reduceOption) :
    Minds P (Parser.addFlagged k flags start r) fun c => [⟨c, block⟩] :=
  addGathering shape kind (.of_parts other parts)

theorem addRow {children : List Child} (shape : k.shape? = some r.shape)
    (kind : block = false → k ≠ .block) (other : r.isIn = false)
    (parts : ∀ t : Tree, t.reached k r = P.map Spot.child ++ children.reverse) :
    Minds (P ++ constructs children) (Parser.addFlagged k flags start r)
      fun c => [⟨c, block⟩] := by
  refine .given (.add shape kind other fun t => ?_) .reverse
  rw [parts t, List.map_append, constructs_child]

end Minds

/-! ### Shelter -/

/-- A parser that is blind to the ban and makes no bare `in` either way. -/
structure Sheltered (act : Parser Child) : Prop where
  neutral : Neutral act
  clear : ∀ s : ParserState, s.tree.pools.size = Shape.count →
    (act s).2.tree.AllClear (value (act s).1)

namespace Sheltered

variable {act yes no : Parser Child} {first : Parser α} {next : α → Parser Child} {k : NodeKind}
  {r : Record} {flags start stop : Nat}

theorem minds (h : Sheltered act) : Minds [] act value := .of_neutral h.neutral h.clear

theorem missing : Sheltered (Pure.pure none) :=
  ⟨.pure none, fun _ _ => Covers.clear (.of_none false) nofun⟩

theorem bind (h : Neutral first) (k : ∀ a, Sheltered (next a)) : Sheltered (first >>= next) :=
  ⟨h.bind fun a => (k a).neutral, fun s pools => (k _).clear _ (h.keeps s pools).pools⟩

theorem before {last : Parser α} (h : Sheltered act) (k : Neutral last) :
    Sheltered (act >>= fun c => last >>= fun _ => Pure.pure c) := by
  refine ⟨h.neutral.bind fun c => k.bind fun _ => .pure c, fun s pools => ?_⟩
  have kept := k.keeps (act s).2 (h.neutral.keeps s pools).pools
  exact (h.clear s pools).of_extends kept.tree

theorem add (shape : k.shape? = some r.shape) (other : r.isIn = false)
    (parts : ∀ t : Tree, t.reached k r = []) : Sheltered (Parser.addFlagged k flags start r) := by
  refine ⟨neutral_addFlagged k flags start r, fun s pools p hp i child => ?_⟩
  obtain rfl := List.mem_singleton.1 hp
  obtain rfl : s.tree.size = i := Option.some.inj child
  refine .construct (Tree.add_bears pools shape flags start s.previousEnd) other fun j mem => ?_
  rw [parts] at mem
  cases mem

theorem addToken : Sheltered (Parser.addToken k start stop) := by
  refine ⟨neutral_addToken k start stop, fun s pools p hp i child => ?_⟩
  obtain rfl := List.mem_singleton.1 hp
  obtain rfl : s.tree.size = i := Option.some.inj child
  have node : (s.tree.addToken k start stop).2.nodes[s.tree.size]? =
      some ⟨k, 0, start, stop, none, none⟩ := by
    rw [Tree.addToken_nodes, Tree.size, Array.getElem?_push_size]
  exact .plain node (.inl rfl)

theorem addSpanned {k : TokenKind} : Sheltered (Parser.addSpanned (.token k) start stop r) := by
  refine ⟨neutral_addSpanned _ start stop r, fun s pools p hp i child => ?_⟩
  obtain rfl := List.mem_singleton.1 hp
  obtain rfl : s.tree.size = i := Option.some.inj child
  obtain ⟨q, hn⟩ := s.tree.add_node_last (.token k) 0 start stop r
  exact .plain hn (.inr ⟨k, rfl⟩)

end Sheltered

end Parser

end PathGuard
