import PathGuard.Proofs.Scope.Owner
/-!
# What declares nothing

Names, literals and the parts of imports declare nothing by themselves, nor does anything that lies
below them, so a walk that collects declarations may pass them over.
-/

namespace PathGuard

def NodeKind.isDeclaring : NodeKind → Bool
  | .variableDeclaration | .parameter | .functionDeclaration | .classDeclaration
  | .importDeclaration | .functionExpression | .classExpression => true
  | _ => false

namespace Tree

variable {t : Tree} {i : Nat} {n : Node}

def Silent (t : Tree) (i : Nat) : Prop := t.declarations i = [] ∧ t.innerDeclarations i = []

theorem silent_of_kind (hn : t.nodes[i]? = some n) (quiet : n.kind.isDeclaring = false) :
    t.Silent i := by
  unfold Silent declarations innerDeclarations
  rw [kind?_of_node hn]
  constructor
  · split
    all_goals first
      | rfl
      | (next kind _ => rw [Option.some.inj kind] at quiet; cases quiet)
  · split
    all_goals first
      | rfl
      | (next kind _ => rw [Option.some.inj kind] at quiet; cases quiet)

theorem declarations_of_closed (hn : t.nodes[i]? = some n) (closed : n.kind.isClosed = true) :
    t.declarations i = [] := by
  unfold declarations
  rw [kind?_of_node hn]
  split
  all_goals first
    | rfl
    | (next kind _ => rw [Option.some.inj kind] at closed; cases closed)

def SilentBelow (t : Tree) (i : Nat) : Prop := ∀ d, t.Below i d → t.Silent d

theorem silentBelow_of_parts (silent : t.Silent i)
    (parts : ∀ c ∈ t.children (some i), t.SilentBelow c) : t.SilentBelow i := by
  intro d below
  rcases below.cases_top with rfl | ⟨c, part, below⟩
  · exact silent
  · exact parts c part d below

theorem Sound.child_role (sound : t.Sound) (hn : t.nodes[i]? = some n) {c : Nat}
    (part : c ∈ t.children (some i)) :
    ∃ r m kinds, t.Construct i n r ∧ t.nodes[c]? = some m ∧ (some c, kinds) ∈ r.roles n.kind ∧
      kinds m.kind = true := by
  obtain ⟨n', r, hn', hc, named⟩ := sound.belongs (sound.mem_children.1 part)
  rw [hn, Option.some.injEq] at hn'
  subst hn'
  rw [← r.roles_parts n.kind] at named
  obtain ⟨⟨_, kinds⟩, role, rfl⟩ := List.mem_map.1 named
  obtain ⟨m, hm, suits⟩ := hc.part_kind role
  exact ⟨r, m, kinds, hc, hm, role, suits⟩

theorem Sound.silentBelow_of_bare (sound : t.Sound) (hn : t.nodes[i]? = some n)
    (bare : n.kind.shape? = none ∨ n.kind.shape? = some .identifier ∨
      n.kind.shape? = some .literal)
    (quiet : n.kind.isDeclaring = false) : t.SilentBelow i := by
  refine silentBelow_of_parts (silent_of_kind hn quiet) fun c part => ?_
  obtain ⟨r, m, kinds, hc, -, role, -⟩ := sound.child_role hn part
  have shape := hc.layout.shape
  rcases bare with none_ | identifier | literal
  · rw [none_] at shape
    cases shape
  · rw [identifier] at shape
    cases r <;> cases shape
    cases role
  · rw [literal] at shape
    cases r <;> cases shape
    cases role

theorem Sound.silentBelow_of_outerName (sound : t.Sound) (hn : t.nodes[i]? = some n)
    (kind : n.kind.isOuterName = true) : t.SilentBelow i := by
  rw [NodeKind.isOuterName, Bool.or_eq_true] at kind
  rcases kind with name | literal
  · unfold NodeKind.isName at name
    split at name
    · next kind =>
      exact sound.silentBelow_of_bare hn (.inr (.inl (by rw [kind]; rfl))) (by rw [kind]; rfl)
    · cases name
  · unfold NodeKind.isLiteral at literal
    split at literal
    · next kind =>
      exact sound.silentBelow_of_bare hn (.inr (.inr (by rw [kind]; rfl))) (by rw [kind]; rfl)
    · cases literal

theorem isOuterName_of_name {k : NodeKind} (h : k.isName = true) : k.isOuterName = true := by
  rw [NodeKind.isOuterName, h, Bool.true_or]

theorem Sound.silentBelow_of_modifier (sound : t.Sound) (hn : t.nodes[i]? = some n)
    (kind : n.kind.isModifier = true) : t.SilentBelow i := by
  have word : n.kind = .token (.word .staticWord) := eq_of_beq kind
  exact sound.silentBelow_of_bare hn (.inl (by rw [word]; rfl)) (by rw [word]; rfl)

theorem Sound.silentBelow_of_import (sound : t.Sound) (hn : t.nodes[i]? = some n)
    (kind : n.kind = .importClause ∨ n.kind.isImportBinding = true ∨ n.kind.isSpecifier = true) :
    t.SilentBelow i := by
  -- an import has three levels, which are taken from the innermost outwards
  have specifier {i : Nat} {n : Node} (hn : t.nodes[i]? = some n)
      (kind : n.kind.isSpecifier = true) : t.SilentBelow i := by
    have quiet : n.kind.isDeclaring = false ∧ n.kind.shape? = some .specifier := by
      rw [NodeKind.isSpecifier, Bool.or_eq_true, beq_iff_eq, beq_iff_eq] at kind
      rcases kind with kind | kind <;> rw [kind] <;> exact ⟨rfl, rfl⟩
    refine silentBelow_of_parts (silent_of_kind hn quiet.1) fun c part => ?_
    obtain ⟨r, m, kinds, hc, hm, role, suits⟩ := sound.child_role hn part
    have shape := hc.layout.shape
    rw [quiet.2] at shape
    cases r <;> cases shape
    simp only [Record.roles, List.mem_cons, Prod.mk.injEq, List.not_mem_nil, or_false] at role
    rcases role with ⟨-, rfl⟩ | ⟨-, rfl⟩
    · exact sound.silentBelow_of_outerName hm suits
    · exact sound.silentBelow_of_outerName hm suits
  have binding {i : Nat} {n : Node} (hn : t.nodes[i]? = some n)
      (kind : n.kind.isImportBinding = true) : t.SilentBelow i := by
    have quiet : n.kind.isDeclaring = false ∧ n.kind.shape? = some .namedBindings := by
      rw [NodeKind.isImportBinding, Bool.or_eq_true, beq_iff_eq, beq_iff_eq] at kind
      rcases kind with kind | kind <;> rw [kind] <;> exact ⟨rfl, rfl⟩
    refine silentBelow_of_parts (silent_of_kind hn quiet.1) fun c part => ?_
    obtain ⟨r, m, kinds, hc, hm, role, suits⟩ := sound.child_role hn part
    have shape := hc.layout.shape
    rw [quiet.2] at shape
    cases r <;> cases shape
    rcases List.mem_cons.1 role with same | later
    · cases same
      exact sound.silentBelow_of_outerName hm suits
    · obtain ⟨_, -, same⟩ := List.mem_map.1 later
      cases same
      exact specifier hm suits
  rcases kind with kind | kind | kind
  · refine silentBelow_of_parts (silent_of_kind hn (by rw [kind]; rfl)) fun c part => ?_
    obtain ⟨r, m, kinds, hc, hm, role, suits⟩ := sound.child_role hn part
    have shape := hc.layout.shape
    rw [kind] at shape
    cases r <;> cases shape
    simp only [Record.roles, List.mem_cons, Prod.mk.injEq, List.not_mem_nil, or_false] at role
    rcases role with ⟨-, rfl⟩ | ⟨-, rfl⟩
    · exact sound.silentBelow_of_outerName hm (isOuterName_of_name suits)
    · exact binding hm suits
  · exact binding hn kind
  · exact specifier hn kind

end Tree

end PathGuard
