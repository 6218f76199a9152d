import Mathlib.Data.List.Basic
import PathGuard.Grammar.Phrase
import PathGuard.Proofs.Grammar.Judgement
import PathGuard.Proofs.Tree.Sound
/-!
# What parsers make

A parser makes nodes that belong to nothing yet, and whoever called it gives them to a construct of
its own. `MakesAt at_ before act after` says that `act`, called at a token of a kind in `at_` by one
who holds the parts `before`, leaves the parts `after` in their place, whatever else the caller
holds. Every rule of the grammar is read off with the few laws here, one for each way of putting
parsers together.
-/

namespace PathGuard

/-- What a part has to be: its kind and marks, how much deeper than the depth of parsing tells its
parentheses and scopes may be nested, and whether it has to be there. -/
structure Role where
  admits : NodeKind → Nat → Bool
  rise : Nat
  sure : Bool

/-- A part that is held, and what is known of it. -/
structure Part where
  child : Child
  role : Role

/-- The role of a part that may be missing and may carry any marks. -/
def Role.of (kinds : NodeKind → Bool) (rise : Nat) : Role := ⟨fun k _ => kinds k, rise, false⟩

def Role.plain (kinds : NodeKind → Bool) (rise : Nat) : Role :=
  ⟨fun k flags => kinds k && flags == 0, rise, false⟩

/-- How deeply parentheses and scopes may be nested in what is made at a depth of parsing. -/
def nestBound (depth : Nat) : Nat := 2 * (maxDepth - depth)

namespace Part

/-- Whether a part has its role, is newer than `base` nodes, and belongs to nothing. -/
structure Free (p : Part) (base bound : Nat) (t : Tree) : Prop where
  sure : p.role.sure = true → p.child ≠ none
  node : ∀ i, p.child = some i → base ≤ i ∧ ∃ n, t.nodes[i]? = some n ∧ n.parent = none ∧
    p.role.admits n.kind n.flags = true ∧ t.Nested (bound + p.role.rise) i

theorem free_none (role : Role) (possible : role.sure = false) (base bound : Nat) (t : Tree) :
    Part.Free ⟨none, role⟩ base bound t where
  sure := by simp [possible]
  node := by simp

end Part

/-- What is known when a parser that began at `s₀` has come to `s` and holds some parts: the tree is
sound, what was there at the beginning is as it was, and the parts are free and in the order in
which they were made. -/
structure Held (s₀ : ParserState) (parts : List Part) (s : ParserState) : Prop where
  sound : s.tree.Sound
  grown : s₀.tree.Extends s.tree
  kept : ∀ i, i < s₀.tree.size → s.tree.nodes[i]? = s₀.tree.nodes[i]?
  depth : s.depth = s₀.depth
  deep : s₀.depth ≤ maxDepth
  sorted : (parts.filterMap Part.child).Pairwise (· < ·)
  free : ∀ p ∈ parts, p.Free s₀.tree.size (nestBound s₀.depth) s.tree

namespace Held

variable {s₀ s₁ s s' : ParserState} {parts more : List Part}

theorem start (sound : s.tree.Sound) (deep : s.depth ≤ maxDepth) : Held s [] s where
  sound := sound
  grown := .refl _
  kept := fun _ _ => rfl
  depth := rfl
  deep := deep
  sorted := .nil
  free := by simp

theorem of_tree (h : Held s₀ parts s) (tree : s'.tree = s.tree) (depth : s'.depth = s.depth) :
    Held s₀ parts s' where
  sound := tree ▸ h.sound
  grown := tree ▸ h.grown
  kept := tree ▸ h.kept
  depth := depth.trans h.depth
  deep := h.deep
  sorted := h.sorted
  free := tree ▸ h.free

theorem append (h : Held s₀ parts s) (h' : Held s more s') : Held s₀ (parts ++ more) s' where
  sound := h'.sound
  grown := h.grown.trans h'.grown
  kept := fun i hi => (h'.kept i (Nat.lt_of_lt_of_le hi h.grown.size_le)).trans (h.kept i hi)
  depth := h'.depth.trans h.depth
  deep := h.deep
  sorted := by
    rw [List.filterMap_append, List.pairwise_append]
    refine ⟨h.sorted, h'.sorted, fun i hi j hj => ?_⟩
    obtain ⟨p, hp, child⟩ := List.mem_filterMap.1 hi
    obtain ⟨q, hq, child'⟩ := List.mem_filterMap.1 hj
    obtain ⟨-, n, hn, -⟩ := (h.free p hp).node i child
    exact Nat.lt_of_lt_of_le (Tree.lt_size_of_node hn) ((h'.free q hq).node j child').1
  free := by
    intro p hp
    rcases List.mem_append.1 hp with old | new
    · refine ⟨(h.free p old).sure, fun i hi => ?_⟩
      obtain ⟨base, n, hn, hf, ha, deep⟩ := (h.free p old).node i hi
      refine ⟨base, n, ?_, hf, ha, deep.of_extends h'.grown⟩
      rw [h'.kept i (Tree.lt_size_of_node hn), hn]
    · refine ⟨(h'.free p new).sure, fun i hi => ?_⟩
      obtain ⟨base, n, hn, hf, ha, deep⟩ := (h'.free p new).node i hi
      rw [h.depth] at deep
      exact ⟨Nat.le_trans h.grown.size_le base, n, hn, hf, ha, deep⟩

end Held

/-! ### Forgetting -/

namespace Part

/-- Whether what is known of `p` implies what is known of `q`. -/
structure Le (p q : Part) : Prop where
  child : p.child = q.child
  admits : ∀ k flags, p.role.admits k flags = true → q.role.admits k flags = true
  rise : p.role.rise ≤ q.role.rise
  sure : q.role.sure = true → p.role.sure = true ∨ p.child ≠ none

theorem Le.free {p q : Part} (h : p.Le q) {base bound : Nat} {t : Tree}
    (hf : p.Free base bound t) : q.Free base bound t where
  sure := by
    intro sure
    rw [← h.child]
    rcases h.sure sure with known | there
    · exact hf.sure known
    · exact there
  node := by
    intro i hi
    obtain ⟨hb, n, hn, free, ha, deep⟩ := hf.node i (h.child.trans hi)
    have rise := h.rise
    exact ⟨hb, n, hn, free, h.admits _ _ ha, deep.mono (by omega)⟩

/-- Parts may be dropped, less may be known of them, and missing ones may be added. -/
inductive Covers : List Part → List Part → Prop where
  | nil : Covers [] []
  | keep {p q : Part} {Δ Δ' : List Part} (le : p.Le q) (rest : Covers Δ Δ') :
      Covers (p :: Δ) (q :: Δ')
  | drop {p : Part} {Δ Δ' : List Part} (rest : Covers Δ Δ') : Covers (p :: Δ) Δ'
  | missing {role : Role} {Δ Δ' : List Part} (possible : role.sure = false)
      (rest : Covers Δ Δ') : Covers Δ (⟨none, role⟩ :: Δ')

theorem Le.refl (p : Part) : p.Le p where
  child := rfl
  admits := fun _ _ h => h
  rise := Nat.le_refl _
  sure := .inl

namespace Covers

variable {Δ Δ' : List Part}

theorem refl : (Δ : List Part) → Covers Δ Δ
  | [] => .nil
  | p :: rest => .keep (.refl p) (refl rest)

theorem nothing : (Δ : List Part) → Covers Δ []
  | [] => .nil
  | _ :: rest => .drop (nothing rest)

theorem append_left (Γ : List Part) (h : Covers Δ Δ') : Covers (Γ ++ Δ) (Γ ++ Δ') := by
  induction Γ with
  | nil => exact h
  | cons p Γ ih => exact .keep (.refl p) ih

theorem init (Γ Δ : List Part) : Covers (Γ ++ Δ) Γ := by
  have dropped := (nothing Δ).append_left Γ
  rwa [List.append_nil] at dropped

theorem sublist (h : Covers Δ Δ') : (Δ'.filterMap Part.child).Sublist (Δ.filterMap Part.child) := by
  induction h with
  | nil => exact .slnil
  | @keep p q Δ Δ' le rest ih =>
    rw [List.filterMap_cons, List.filterMap_cons, le.child]
    cases q.child with
    | none => exact ih
    | some i => exact ih.cons_cons i
  | @drop p Δ Δ' rest ih =>
    rw [List.filterMap_cons]
    cases p.child with
    | none => exact ih
    | some i => exact ih.cons i
  | missing possible rest ih => exact ih

theorem free (h : Covers Δ Δ') {base bound : Nat} {t : Tree}
    (hf : ∀ p ∈ Δ, p.Free base bound t) : ∀ q ∈ Δ', q.Free base bound t := by
  induction h with
  | nil => simp
  | keep le rest ih =>
    intro q hq
    rcases List.mem_cons.1 hq with rfl | later
    · exact le.free (hf _ (List.mem_cons_self ..))
    · exact ih (fun p hp => hf p (List.mem_cons_of_mem _ hp)) q later
  | drop rest ih => exact ih fun p hp => hf p (List.mem_cons_of_mem _ hp)
  | @missing role Δ Δ' possible rest ih =>
    intro q hq
    rcases List.mem_cons.1 hq with rfl | later
    · exact free_none role possible base bound t
    · exact ih hf q later

theorem held (h : Covers Δ Δ') {s₀ s : ParserState} {Γ : List Part} (hh : Held s₀ (Γ ++ Δ) s) :
    Held s₀ (Γ ++ Δ') s := by
  have both := h.append_left Γ
  exact { hh with
    sorted := hh.sorted.sublist both.sublist
    free := both.free hh.free }

end Covers

end Part

/-! ### Parsers -/

namespace Parser

variable {α β σ : Type}

/-- From the parts `P`, at a token of a kind in `at_`, a parser makes the parts `Q`. -/
def MakesAt (at_ : TokenKind → Prop) (P : List Part) (act : Parser α)
    (Q : α → List Part) : Prop :=
  ∀ s₀ Γ s, at_ s.lexer.kind → Held s₀ (Γ ++ P) s →
    Held s₀ (Γ ++ Q (act s).1) (act s).2

/-- The same at any token. -/
abbrev Makes (P : List Part) (act : Parser α) (Q : α → List Part) : Prop :=
  MakesAt (fun _ => True) P act Q

def Idle (act : Parser α) : Prop := ∀ s, (act s).2.tree = s.tree ∧ (act s).2.depth = s.depth

def Looks (act : Parser α) : Prop := ∀ s, (act s).2 = s

/-- A single part with a role. -/
def one (role : Role) (child : Child) : List Part := [⟨child, role⟩]

def row (role : Role) (children : List Child) : List Part := children.map (⟨·, role⟩)

/-- Parts in a row are kept last one first while they are read. -/
theorem covers_snoc (role : Role) (children : List Child) (child : Child) :
    Part.Covers (row role children.reverse ++ one role child)
      (row role (child :: children).reverse) := by
  have same : row role (child :: children).reverse =
      row role children.reverse ++ one role child := by
    simp [row, one]
  exact same ▸ .refl _

theorem Looks.closed : Closed Looks where
  pure := fun _ _ => rfl
  bind := by
    intro α β act next h k s
    change (next (act s).1 (act s).2).2 = s
    rw [k, h]

theorem Looks.idle {act : Parser α} (h : Looks act) : Idle act := by
  intro s
  rw [h s]
  exact ⟨rfl, rfl⟩

theorem Idle.closed : Closed Idle where
  pure := fun _ _ => ⟨rfl, rfl⟩
  bind := by
    intro α β act next h k s
    obtain ⟨tree, depth⟩ := h s
    obtain ⟨tree', depth'⟩ := k (act s).1 (act s).2
    exact ⟨tree'.trans tree, depth'.trans depth⟩

namespace MakesAt

variable {at_ : TokenKind → Prop} {P : List Part} {act : Parser α}
  {next : α → Parser β} {Q : α → List Part} {R : β → List Part}

theorem any (h : Makes P act Q) : MakesAt at_ P act Q :=
  fun s₀ Γ s _ held => h s₀ Γ s trivial held

theorem weaken {at' : TokenKind → Prop} (h : MakesAt at_ P act Q)
    (imp : ∀ k, at' k → at_ k) : MakesAt at' P act Q :=
  fun s₀ Γ s token held => h s₀ Γ s (imp _ token) held

theorem imp {Q' : α → List Part} (h : MakesAt at_ P act Q)
    (covers : ∀ a, Part.Covers (Q a) (Q' a)) : MakesAt at_ P act Q' :=
  fun s₀ Γ s token held => (covers _).held (h s₀ Γ s token held)

theorem given {P' : List Part} (h : MakesAt at_ P act Q) (covers : Part.Covers P' P) :
    MakesAt at_ P' act Q :=
  fun s₀ Γ s token held => h s₀ Γ s token (covers.held held)

theorem pure {a : α} (covers : Part.Covers P (Q a)) :
    MakesAt at_ P (Pure.pure a) Q :=
  fun _ _ _ _ held => covers.held held

theorem frame (Θ : List Part) (h : MakesAt at_ P act Q) :
    MakesAt at_ (Θ ++ P) act fun a => Θ ++ Q a := by
  intro s₀ Γ s token held
  rw [← List.append_assoc] at held ⊢
  exact h s₀ (Γ ++ Θ) s token held

theorem bind (h : MakesAt at_ P act Q) (k : ∀ a, Makes (Q a) (next a) R) :
    MakesAt at_ P (act >>= next) R :=
  fun s₀ Γ s token held => k _ s₀ Γ _ trivial (h s₀ Γ s token held)

theorem upon (Θ : List Part) (h : MakesAt at_ P act Q)
    (k : ∀ a, Makes (Θ ++ Q a) (next a) R) : MakesAt at_ (Θ ++ P) (act >>= next) R :=
  (h.frame Θ).bind k

theorem call (h : MakesAt at_ [] act Q)
    (k : ∀ a, Makes (P ++ Q a) (next a) R) :
    MakesAt at_ P (act >>= next) R := by
  have framed := h.frame P
  rw [List.append_nil] at framed
  exact framed.bind k

theorem idle (h : Idle act) (k : ∀ a, Makes P (next a) R) :
    MakesAt at_ P (act >>= next) R := by
  intro s₀ Γ s token held
  obtain ⟨tree, depth⟩ := h s
  exact k _ s₀ Γ _ trivial (held.of_tree tree depth)

theorem look (h : Looks act) (k : ∀ a, MakesAt at_ P (next a) R) :
    MakesAt at_ P (act >>= next) R := by
  intro s₀ Γ s token held
  change Held s₀ (Γ ++ R (next (act s).1 (act s).2).1) (next (act s).1 (act s).2).2
  rw [h s]
  exact k _ s₀ Γ s token held

theorem without {r : Role} {join : Child → Parser β} (possible : r.sure = false)
    (k : ∀ a, Makes (P ++ one r a) (join a) R) :
    MakesAt at_ P (Pure.pure none >>= join) R :=
  .call (.pure (.missing possible .nil)) k

/-- A part that is there in one case and left out in the other. -/
theorem optional {c : Prop} [Decidable c] {act : Parser Child} {r : Role} (possible : r.sure = false)
    (h : c → MakesAt at_ [] act (one r)) :
    MakesAt at_ [] (if c then act else Pure.pure none) (one r) :=
  decided h fun _ => .pure (.missing possible .nil)

end MakesAt

end Parser

end PathGuard
