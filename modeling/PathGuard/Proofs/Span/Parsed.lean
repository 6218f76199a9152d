import PathGuard.Proofs.Grammar.Program
import PathGuard.Proofs.Span.Program
/-!
# Parsed texts

The nodes of every text lie in it one inside the other and one behind the other, and those of a text
without problems lack nothing.
-/

namespace PathGuard

/-- Whether the nodes of a parsed text are where they belong: each begins and ends at characters of
the text, lies around its children, and its children lie behind each other. Where no problem was
found, every node takes characters but a hole between commas, the end of the text and the text. -/
structure ParsedFile.InPlace (file : ParsedFile) (text : List Char) : Prop where
  boundary : ∀ (i : NodeId) (n : Node), file.tree.nodes[i]? = some n →
    IsBoundary text n.start ∧ IsBoundary text n.stop
  within : ∀ (i : NodeId) (n : Node), file.tree.nodes[i]? = some n →
    n.start ≤ byteLength text ∧ n.stop ≤ byteLength text
  inside : ∀ (p : NodeId) (n : Node), file.tree.nodes[p]? = some n →
    ∀ c ∈ file.tree.children (some p),
      ∃ m, file.tree.nodes[c]? = some m ∧ n.start ≤ m.start ∧ m.stop ≤ n.stop
  ordered : ∀ p : NodeId, (file.tree.children (some p)).Pairwise fun c c' =>
    ∀ m m' : Node, file.tree.nodes[c]? = some m → file.tree.nodes[c']? = some m' →
      m.stop ≤ m'.start
  full : file.problems = [] → ∀ (i : NodeId) (n : Node), file.tree.nodes[i]? = some n →
    n.kind.mayBeEmpty = false → n.start < n.stop

theorem parseFile_placed (fileName source : String) :
    (parseFile fileName source).tree.Placed source.toList
      ((parseFile fileName source).problems = []) := by
  intro i n hn
  obtain ⟨settled, whole⟩ := Parser.placed_program fileName source.toList i n hn
  exact ⟨settled, fun clean => whole (List.reverse_eq_nil_iff.1 clean)⟩

/-- The nodes of every text are in place, also where the text has syntax problems. -/
theorem parseFile_inPlace (fileName source : String) :
    (parseFile fileName source).InPlace source.toList := by
  have placed := parseFile_placed fileName source
  have settled {i : NodeId} {n : Node} (hn : (parseFile fileName source).tree.nodes[i]? = some n) :=
    (placed i n hn).1
  refine {
    boundary := fun i n hn => ⟨(settled hn).start, (settled hn).stop⟩
    within := fun i n hn => ⟨(settled hn).start.le, (settled hn).stop.le⟩
    inside := fun p n hn => ?_
    ordered := fun p => ?_
    full := fun clean i n hn => ((placed i n hn).2 clean).full }
  · rw [Tree.children_of_node hn]
    exact (settled hn).inside
  · cases hn : (parseFile fileName source).tree.nodes[p]? with
    | none =>
      rw [Tree.children_of_none hn]
      exact .nil
    | some n =>
      rw [Tree.children_of_node hn]
      refine (List.pairwise_filterMap.1 (settled hn).sorted).imp fun behind m m' hm hm' => ?_
      exact behind _ (Tree.span?_of_node hm) _ (Tree.span?_of_node hm')

theorem parseFile_inPlace_call :
    (parseFile "call.ts" "f(1, ...a)").problems = [] ∧
      ∀ (i : NodeId) (n : Node), (parseFile "call.ts" "f(1, ...a)").tree.nodes[i]? = some n →
        n.kind.mayBeEmpty = false → n.start < n.stop := by
  have clean : (parseFile "call.ts" "f(1, ...a)").problems = [] := by decide +kernel
  exact ⟨clean, (parseFile_inPlace "call.ts" "f(1, ...a)").full clean⟩

/-- Whether the nodes of a parsed text lack nothing: every construct has a record of its kind, with
all the parts that have to be there. -/
def ParsedFile.Complete (file : ParsedFile) (text : List Char) : Prop :=
  ∀ (i : NodeId) (n : Node), file.tree.nodes[i]? = some n → n.kind.shape? ≠ none →
    ∃ r, file.tree.record? n = some r ∧ n.kind.shape? = some r.shape ∧
      r.Complete text n.start n.kind

/-- A text in which no problem was found lacks nothing. -/
theorem parseFile_complete (fileName source : String)
    (clean : (parseFile fileName source).problems = []) :
    (parseFile fileName source).Complete source.toList := by
  intro i n hn construct
  obtain ⟨-, whole⟩ := parseFile_placed fileName source i n hn
  obtain bare | ⟨r, made⟩ := (parseFile_sound fileName source).tree.formed hn
  · exact absurd bare.shape construct
  · exact ⟨r, made.record, made.layout.shape, (whole clean).complete r made.record⟩

/-- A class without problems: nothing behind its `extends` and in its method is left out. -/
theorem parseFile_complete_class :
    (parseFile "class.ts" "class C extends D \x7b m(a) \x7b return a + 1 \x7d \x7d").problems = [] ∧
      (parseFile "class.ts" "class C extends D \x7b m(a) \x7b return a + 1 \x7d \x7d").Complete
        "class C extends D \x7b m(a) \x7b return a + 1 \x7d \x7d".toList := by
  have clean : (parseFile "class.ts" "class C extends D \x7b m(a) \x7b return a + 1 \x7d \x7d").problems = [] := by
    decide +kernel
  exact ⟨clean, parseFile_complete "class.ts" _ clean⟩

end PathGuard
