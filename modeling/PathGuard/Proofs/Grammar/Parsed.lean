import PathGuard.Proofs.Grammar.Program
import PathGuard.Proofs.Tree.Preorder
/-!
# Parsed trees

The nodes of a parsed text make one tree for each node that belongs to nothing, and the source file
is the last of them.
-/

namespace PathGuard

namespace Parser

/-- Whether what holds of all outcomes of `next` holds of all outcomes of a parser. -/
def Ends {α : Type} (act : Parser α) (R : α × ParserState → Prop) : Prop := ∀ s, R (act s)

theorem Ends.bind {α β : Type} {act : Parser α} {next : α → Parser β} {R : β × ParserState → Prop}
    (h : ∀ a, Ends (next a) R) : Ends (act >>= next) R := fun s => h (act s).1 (act s).2

theorem ends_addSpanned (k : NodeKind) (start stop : Nat) (r : Record) :
    Ends (addSpanned k start stop r) fun (child, s) => ∃ i, child = some i ∧ s.tree.size = i + 1 := by
  intro s
  refine ⟨s.tree.size, rfl, ?_⟩
  exact Tree.add_size s.tree k 0 start stop r

theorem ends_program (fileName : String) (text : List Char) :
    Ends (program fileName text) fun (child, s) => ∃ i, child = some i ∧ s.tree.size = i + 1 :=
  .bind fun _ => .bind fun _ => .bind fun _ => ends_addSpanned _ _ _ _

end Parser

theorem parseFile_root_last (fileName source : String) :
    ∃ root, (parseFile fileName source).root = some root ∧
      (parseFile fileName source).tree.size = root + 1 :=
  Parser.ends_program fileName source.toList (.start source.toList)

theorem parseFile_root (fileName source : String) : ∃ root n,
    (parseFile fileName source).root = some root ∧
      (parseFile fileName source).tree.size = root + 1 ∧
        (parseFile fileName source).tree.nodes[root]? = some n ∧ n.kind = .sourceFile ∧
          n.parent = none := by
  obtain ⟨-, root, n, isRoot, hn, kind, orphan⟩ := parseFile_sound fileName source
  obtain ⟨last, isLast, size⟩ := parseFile_root_last fileName source
  rw [isRoot, Option.some.injEq] at isLast
  subst isLast
  exact ⟨root, n, isRoot, size, hn, kind, orphan⟩

/-- Whether the nodes of a parsed text make a tree: the children of a node were added before it, each
is a child of that node alone and one time only, and belongs to it; what belongs to a node is one of
its children; and the root is the last node, a source file that belongs to nothing. -/
structure ParsedFile.IsTree (file : ParsedFile) : Prop where
  child : ∀ p c, c ∈ file.tree.children (some p) →
    (∃ n, file.tree.nodes[c]? = some n) ∧ c < p ∧ file.tree.parent (some c) = some p ∧
      (file.tree.children (some p)).count c = 1 ∧ ∀ q, c ∈ file.tree.children (some q) → q = p
  part : ∀ c p, file.tree.parent (some c) = some p → c ∈ file.tree.children (some p)
  root : ∃ root n, file.root = some root ∧ file.tree.size = root + 1 ∧
    file.tree.nodes[root]? = some n ∧ n.kind = .sourceFile ∧ n.parent = none

/-- The nodes of every text make a tree, also where the text has syntax problems. -/
theorem parseFile_isTree (fileName source : String) : (parseFile fileName source).IsTree := by
  have sound := (parseFile_sound fileName source).tree
  refine ⟨fun p c part => ?_, fun c p owned => sound.mem_children.2 owned, ?_⟩
  · have owned := sound.mem_children.1 part
    obtain ⟨m, hm, -⟩ := Option.bind_eq_some_iff.1 owned
    refine ⟨⟨m, hm⟩, sound.child_lt part, owned,
      List.count_eq_one_of_mem (sound.children_nodup p) part, fun q part' => ?_⟩
    have owned' := sound.mem_children.1 part'
    rw [owned, Option.some.injEq] at owned'
    exact owned'.symm
  · exact parseFile_root fileName source

end PathGuard
