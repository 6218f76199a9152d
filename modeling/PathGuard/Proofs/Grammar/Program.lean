import PathGuard.Grammar.Program
import PathGuard.Proofs.Grammar.Module
/-!
# Parsed trees are sound

Every rule of the grammar makes what its phrase should, so the tree of every text is sound, and its
root is the last node: the source file with all its statements.
-/

namespace PathGuard

namespace Parser

variable {sub : PhraseParser} {at_ : TokenKind → Prop}

theorem makes_labeledOrExpression (hsub : MakesPhrases sub) :
    MakesAt at_ [] (labeledOrExpression sub) (one madeRole) := by
  refine .look looks_atIdentifier fun named => ?_
  extract_lets join
  have joined (labeled : Bool) : Makes [] (join labeled) (one madeRole) := by
    unfold join
    exact decided (fun _ => makes_labeledStatement hsub) fun _ => makes_expressionStatement hsub
  refine decided (fun _ => ?_) fun _ => atOnce (joined false).any
  exact .look looks_peek fun next => atOnce (joined _).any

theorem makes_statement (hsub : MakesPhrases sub) :
    MakesAt at_ [] (statement sub) (one statementRole) := by
  refine .nested (Nat.le_refl 2) (.look looks_kind fun k => ?_)
  split
  · exact makes_block hsub rfl
  · exact makes_emptyStatement
  · exact makes_variableStatement hsub
  · exact makes_variableStatement hsub
  · refine .look looks_letDeclarationAhead fun found => ?_
    exact decided (fun _ => makes_variableStatement hsub) fun _ => makes_labeledOrExpression hsub
  · exact makes_functionDeclaration hsub false rfl
  · refine .look looks_asyncFunctionAhead fun found => ?_
    refine decided (fun _ => makes_functionDeclaration hsub false rfl) fun _ => ?_
    exact makes_labeledOrExpression hsub
  · exact makes_classOf hsub false rfl
  · exact makes_ifStatement hsub
  · exact makes_doStatement hsub
  · exact makes_whileStatement hsub
  · exact makes_forStatement hsub
  · exact makes_jumpStatement rfl
  · exact makes_jumpStatement rfl
  · exact makes_returnOrThrow hsub rfl
  · exact makes_returnOrThrow hsub rfl
  · exact makes_tryStatement hsub
  · exact makes_switchStatement hsub
  · exact makes_debuggerStatement
  · refine .look looks_importExpressionAhead fun found => ?_
    exact decided (fun _ => makes_expressionStatement hsub) fun _ => makes_importDeclaration hsub
  · exact makes_exportDeclaration hsub
  · exact makes_labeledOrExpression hsub

theorem makes_rule (hsub : MakesPhrases sub) : MakesPhrases (rule sub) := by
  intro p
  cases p with
  | statement => exact makes_statement hsub
  | assignment => exact makes_assignment hsub
  | unary => exact makes_unary hsub
  | binary least => exact makes_binary hsub least
  | leftHandSide => exact makes_leftHandSide hsub
  | newExpression => exact makes_newExpression hsub
  | binding => exact makes_binding hsub

theorem makes_phrase (fuel : Nat) : MakesPhrases (phrase fuel) := by
  induction fuel with
  | zero =>
    intro p
    cases p <;> exact .pure (.missing rfl .nil)
  | succ fuel ih => exact makes_rule ih

def fileRole : Role := ⟨fun k _ => k == .sourceFile, 0, true⟩

theorem makes_program (fileName : String) (text : List Char) :
    Makes [] (program fileName text) (one fileRole) := by
  refine .idle Idle.moving.advance fun _ => ?_
  refine (makes_statementList (makes_phrase _) _).call fun statements => ?_
  refine .call (Q := one (.of (· == .token .endOfFile) 0)) (.addToken rfl rfl) fun endOfFile => ?_
  refine .addSpanned 0 ?_ (fun _ => rfl) rfl
  exact .append (.row (fun _ _ h => h) (Nat.le_refl 0) _) (.flat .nil)

end Parser

/-- A parsed text: a sound tree whose root is a source file that belongs to nothing. -/
structure ParsedFile.Sound (file : ParsedFile) : Prop where
  tree : file.tree.Sound
  root : ∃ i n, file.root = some i ∧ file.tree.nodes[i]? = some n ∧ n.kind = .sourceFile ∧
    n.parent = none

theorem parseFile_sound (fileName source : String) : (parseFile fileName source).Sound := by
  have start : Held (.start source.toList) ([] ++ []) (.start source.toList) :=
    .start Tree.empty_sound (Nat.zero_le _)
  have done := Parser.makes_program fileName source.toList _ [] _ trivial start
  have root := done.free _ (List.mem_singleton_self _)
  refine ⟨done.sound, ?_⟩
  obtain ⟨i, hi⟩ := Option.ne_none_iff_exists'.1 (root.sure rfl)
  obtain ⟨-, n, hn, orphan, kind, -⟩ := root.node i hi
  exact ⟨i, n, hi, hn, eq_of_beq kind, orphan⟩

end PathGuard
