import PathGuard.Proofs.Grammar.Chain
/-!
# Texts of one statement

A text whose words make one statement becomes a source file with that statement and the end of the
text, and has no problem.
-/

namespace PathGuard

namespace Parser

variable {sub : PhraseParser} {offset depth : Nat} {ws : List Word} {c : Context} {b : Ending}
  {s : ParserState}

/-! ### Statements -/

theorem At.endStatement (at_ : At offset (markWord .semicolon false :: ws) c depth s) :
    ∃ s', Parser.endStatement s = ((), s') ∧
      At (offset + (markWord .semicolon false).size) ws c depth s' ∧ s'.tree = s.tree := by
  obtain ⟨s', run, after, same⟩ := at_.acceptMark
  refine ⟨s', ?_, after, same⟩
  rw [Parser.endStatement, run_bind run]
  rfl

/-- Whether a statement ends at some words, and the text behind them. -/
structure EndsStatement (offset : Nat) (ws : List Word) (offset' : Nat) : Prop where
  stop : isStop (headKind ws) = true
  ends : ∀ {c depth s}, At offset ws c depth s →
    ∃ s', Parser.endStatement s = ((), s') ∧ At offset' [] c depth s' ∧ s'.tree = s.tree

theorem endsStatement_semicolon (offset : Nat) :
    EndsStatement offset [markWord .semicolon false] (offset + (markWord .semicolon false).size) :=
  ⟨rfl, fun at_ => at_.endStatement⟩

theorem endsStatement_nil (offset : Nat) : EndsStatement offset [] offset where
  stop := rfl
  ends {c depth s} at_ := by
    refine ⟨s, ?_, at_, rfl⟩
    have ended : atStatementEnd s = (true, s) := by
      rw [atStatementEnd, run_bind at_.kind]
      rfl
    rw [Parser.endStatement, run_bind (at_.acceptMark_other nofun), if_neg Bool.false_ne_true,
      run_bind ended]
    rfl

theorem reads_expressionStatement {w : Word} {offset' last : Nat} {ws' : List Word}
    {Q : Nat → Tree → Prop} (keeps : ∀ i t t', Q i t → t.Extends t' → Q i t')
    (ending : EndsStatement offset' ws' last)
    (h : Reads (sub .assignment) offset (w :: ws) c depth offset' ws' Q b .endOfText) :
    Reads (expressionStatement sub) offset (w :: ws) c depth last [] (fun i t => ∃ e, Q e t ∧
      t.Is i .expressionStatement (offset + byteLength w.margin) last
        (.expressionStatement (some e))) b .endOfText := by
  intro s at_
  obtain ⟨e, s₁, run₁, at₁, grows₁, value⟩ := reads_expression ending.stop h s at_
  obtain ⟨s₂, run₂, at₂, same₂⟩ := ending.ends at₁
  obtain ⟨i, s₃, run₃, at₃, grows₃, is⟩ := at₂.add (k := .expressionStatement)
    (r := .expressionStatement (some e)) rfl 0 (offset + byteLength w.margin)
  rw [same₂] at grows₃
  refine ⟨i, s₃, ?_, at₃, grows₁.trans grows₃, e, keeps e _ _ value grows₃, is⟩
  rw [expressionStatement, run_bind at_.tokenStart, run_bind run₁]
  change ((endStatement >>= fun _ => _) : Parser Child) s₁ = _
  rw [run_bind run₂]
  exact run₃

theorem run_labeledOrExpression {w : Word} (at_ : At offset (w :: ws) c depth s b)
    (noLabel : headKind ws b ≠ .mark .colon) :
    labeledOrExpression sub s = expressionStatement sub s := by
  have other : (headKind ws b == .mark .colon) = false := beq_false_of_ne noLabel
  rw [labeledOrExpression, run_bind at_.atIdentifier]
  cases isNameIn c (headKind (w :: ws) b) with
  | false => rfl
  | true =>
    change ((Parser.peek >>= fun _ => _) : Parser Child) s = _
    rw [run_bind at_.peek, other]
    rfl

/-- Whether a statement that begins with two words of these kinds is an expression. -/
inductive BeginsExpression : TokenKind → TokenKind → Prop where
  | name {next : TokenKind} (noLabel : next ≠ .mark .colon) : BeginsExpression .identifier next
  | group {next : TokenKind} : BeginsExpression (.mark .openParen) next
  | new {next : TokenKind} : BeginsExpression (.word .newWord) next
  | literal {k : LiteralKind} {next : TokenKind} : BeginsExpression (.literal k) next
  | importMeta : BeginsExpression (.word .importWord) (.mark .dot)

theorem reads_statement_of_begins {fuel : Nat} (room : depth < maxDepth) {w : Word}
    (begins : BeginsExpression w.kind (headKind ws b)) {offset' : Nat} {Q : Nat → Tree → Prop}
    (h : Reads (expressionStatement (phrase fuel)) offset (w :: ws) c (depth + 1) offset' [] Q b
      .endOfText) :
    Reads (phrase (fuel + 1) .statement) offset (w :: ws) c depth offset' [] Q b .endOfText := by
  refine Reads.nested room fun s at_ => ?_
  have unlabeled (noName : isNameIn c w.kind = false ∨ headKind ws b ≠ .mark .colon) :
      labeledOrExpression (phrase fuel) s = expressionStatement (phrase fuel) s := by
    rcases noName with noName | noLabel
    · rw [labeledOrExpression, run_bind at_.atIdentifier, headKind, noName]
      rfl
    · exact run_labeledOrExpression at_ noLabel
  have read := h s at_
  rw [statementHere, run_bind at_.kind, headKind]
  generalize first : w.kind = k at begins unlabeled
  generalize second : headKind ws b = k' at begins unlabeled
  cases begins with
  | name noLabel =>
    change ∃ i s', labeledOrExpression _ s = (some i, s') ∧ _
    rw [unlabeled (.inr noLabel)]
    exact read
  | group | new | literal =>
    change ∃ i s', labeledOrExpression _ s = (some i, s') ∧ _
    rw [unlabeled (.inl rfl)]
    exact read
  | importMeta =>
    have ahead : importExpressionAhead s = (true, s) := by
      rw [importExpressionAhead, run_bind at_.peek, second]
      rfl
    change ∃ i s', (importExpressionAhead >>= fun here =>
      if here = true then expressionStatement (phrase fuel) else importDeclaration (phrase fuel) :
        Parser Child) s = (some i, s') ∧ _
    rw [run_bind ahead]
    exact read

theorem reads_statement {fuel : Nat} (room : depth < maxDepth) {w : Word} (plain : w.kind = .identifier)
    (noLabel : headKind ws ≠ .mark .colon) {offset' : Nat} {Q : Nat → Tree → Prop}
    (keeps : ∀ i t t', Q i t → t.Extends t' → Q i t')
    (h : Reads (phrase fuel .assignment) offset (w :: ws) c (depth + 1) offset'
      [markWord .semicolon false] Q) :
    Reads (phrase (fuel + 1) .statement) offset (w :: ws) c depth
      (offset' + (markWord .semicolon false).size) [] fun i t => ∃ e, Q e t ∧
        t.Is i .expressionStatement (offset + byteLength w.margin)
          (offset' + (markWord .semicolon false).size) (.expressionStatement (some e)) := by
  have begins : BeginsExpression w.kind (headKind ws) := plain ▸ .name noLabel
  exact reads_statement_of_begins room begins (reads_expressionStatement keeps (endsStatement_semicolon _) h)

theorem reads_chain_statement {fuel : Nat} (room : depth + 4 < maxDepth) (chain : Chain) :
    Reads (phrase (fuel + 3) .statement) offset
      (chain.words false ++ [markWord .semicolon false]) c depth
      (offset + byteLength chain.chars + (markWord .semicolon false).size) [] fun i t =>
        ∃ e, t.Chained offset chain.base chain.links e ∧
          t.Is i .expressionStatement offset
            (offset + byteLength chain.chars + (markWord .semicolon false).size)
            (.expressionStatement (some e)) := by
  have value : Reads (phrase (fuel + 2) .assignment) offset (chain.base.word false ::
      (chain.links.flatMap Link.words ++ [markWord .semicolon false])) c (depth + 1)
      (offset + byteLength chain.chars) [markWord .semicolon false]
      fun i t => t.Chained offset chain.base chain.links i :=
    reads_chain_assignment (by omega) chain false rfl
  exact reads_statement (by omega) chain.free.kind_eq (headKind_links chain.links rfl).2
    (fun _ _ _ chained grows => chained.of_extends grows) value

/-! ### The whole text -/

variable {fuel : Nat} {Q : Nat → Tree → Prop} {offset' : Nat}

theorem run_statementStep_end (at_ : At offset [] c depth s) (statements : List Child) :
    statementStep sub (fun _ => false) statements s = (.done statements, s) := by
  rw [statementStep, run_bind at_.kind]
  rfl

theorem run_statementStep {w : Word} (at_ : At offset (w :: ws) c depth s b)
    (h : Reads (sub .statement) offset (w :: ws) c depth offset' [] Q b .endOfText)
    (more : w.kind ≠ .endOfFile) (statements : List Child) :
    ∃ i s', statementStep sub (fun _ => false) statements s =
        (.yield (some i :: statements), s') ∧ At offset' [] c depth s' ∧
      s.tree.Extends s'.tree ∧ Q i s'.tree := by
  obtain ⟨i, s', run, after, grows, result⟩ := h s at_
  refine ⟨i, s', ?_, after, grows, result⟩
  have goesOn : (decide (w.kind = .endOfFile) || false) = false := by
    rw [decide_eq_false more]
    rfl
  rw [statementStep, run_bind at_.kind, headKind, goesOn]
  change ((Parser.tokenStart >>= fun _ => _) : Parser (ForInStep (List Child))) s = _
  rw [run_bind at_.tokenStart, run_bind run, run_bind after.kind, run_bind (run_tokenStart s')]
  have noEnd : decide (headKind [] ≠ .endOfFile) = false := decide_eq_false fun other => other rfl
  rw [noEnd, Bool.and_false, if_neg Bool.false_ne_true]
  rfl

theorem run_statementList {w : Word} (at_ : At offset (w :: ws) c depth s b)
    (h : Reads (sub .statement) offset (w :: ws) c depth offset' [] Q b .endOfText)
    (more : w.kind ≠ .endOfFile) :
    ∃ i row s', statementList sub (fun _ => false) s = (row, s') ∧ row.nodes = [some i] ∧
      At offset' [] c depth s' ∧ s.tree.Extends s'.tree ∧ Q i s'.tree := by
  obtain ⟨i, s', run, after, grows, result⟩ := run_statementStep at_ h more []
  obtain ⟨left, textLeft, enough⟩ := at_.textLeft
  refine ⟨i, ⟨[some i], offset + byteLength w.margin, s'.previousEnd, false⟩, s', ?_, rfl, after,
    grows, result⟩
  have all : repeating (statementStep sub fun _ => false) [] s = ([some i], s') := by
    rw [repeating, run_bind textLeft]
    cases left with
    | nil => cases enough
    | cons b left =>
      rw [repeatWithin, run_bind run]
      exact run_repeatWithin_done (run_statementStep_end after _) left
  rw [statementList, run_bind at_.tokenStart, run_bind all]
  rfl

theorem parseFile_eq {fileName source : String} {root : Child} {s : ParserState}
    (run : program fileName source.toList (.start source.toList) = (root, s)) :
    parseFile fileName source = ⟨root, s.tree, s.problems.reverse⟩ := by
  simp only [parseFile, StateT.run, run]

theorem parseFile_of_stands (fileName : String) {text : List Char} {w : Word} {ws : List Word}
    (stands : (ParserState.start text).lexer.scan.Stands 0 (w :: ws) b) (more : w.kind ≠ .endOfFile)
    {stop : Nat} {Q : Nat → Tree → Prop} (keeps : ∀ i t t', Q i t → t.Extends t' → Q i t')
    (h : Reads (phrase (text.length + maxDepth + 2) .statement) 0 (w :: ws) (.ofFunction true false) 0
      stop [] Q b .endOfText) :
    let file := parseFile fileName (String.ofList text)
    file.problems = [] ∧ ∃ root i e row, file.root = some root ∧ row.nodes = [some i] ∧
      file.tree.Is root .sourceFile 0 (byteLength text) (.sourceFile row (some e) fileName) ∧
      Q i file.tree := by
  intro file
  obtain ⟨s₁, run₁, at₁, same₁⟩ := At.advance_to stands rfl rfl (by simp [ParserState.start, Tree.empty])
  obtain ⟨i, row, s₂, run₂, nodes, at₂, grows₂, result⟩ := run_statementList at₁ h more
  let stop := byteLength text
  let grown := (s₂.tree.addToken (.token .endOfFile) stop stop).2
  have extends₃ : s₂.tree.Extends grown := Tree.addToken_extends ..
  have at₃ : At _ [] _ _ { s₂ with tree := grown } :=
    ⟨at₂.stands, at₂.previous, at₂.problems, at₂.context, at₂.depth, at₂.pools⟩
  obtain ⟨root, s₄, run₄, at₄, extends₄, is⟩ := at₃.addSpanned (k := .sourceFile)
    (r := .sourceFile row (some s₂.tree.size) fileName) rfl 0 stop
  have run : program fileName text (.start text) = (some root, s₄) := by
    rw [program, run_bind run₁, run_bind run₂]
    exact run₄
  have parsed : file = ⟨some root, s₄.tree, s₄.problems.reverse⟩ := by
    rw [← String.toList_ofList (l := text)] at run
    exact parseFile_eq run
  rw [parsed]
  refine ⟨by rw [at₄.problems]; rfl, root, i, s₂.tree.size, row, rfl, nodes, is, ?_⟩
  exact keeps i _ _ result (extends₃.trans extends₄)

theorem parseFile_statement (fileName : String) {w : Word} {ws : List Word}
    (legible : Legible (w :: ws)) (more : w.kind ≠ .endOfFile) {stop : Nat} {Q : Nat → Tree → Prop}
    (keeps : ∀ i t t', Q i t → t.Extends t' → Q i t')
    (h : Reads (phrase ((spelled (w :: ws)).length + maxDepth + 2) .statement) 0 (w :: ws)
      (.ofFunction true false) 0 stop [] Q) :
    let file := parseFile fileName (String.ofList (spelled (w :: ws)))
    file.problems = [] ∧ ∃ root i e row, file.root = some root ∧ row.nodes = [some i] ∧
      file.tree.Is root .sourceFile 0 (byteLength (spelled (w :: ws)))
        (.sourceFile row (some e) fileName) ∧ Q i file.tree :=
  parseFile_of_stands fileName (Lexer.scan_stands rfl rfl legible) more keeps h

/-- A text whose words are read as a statement with any fuel that is not too small. -/
theorem parseFile_single (fileName : String) {w : Word} {ws : List Word}
    (legible : Legible (w :: ws)) (more : w.kind ≠ .endOfFile) {stop : Nat} {Q : Nat → Tree → Prop}
    (keeps : ∀ i t t', Q i t → t.Extends t' → Q i t')
    (h : ∀ fuel c, Reads (phrase (fuel + maxDepth) .statement) 0 (w :: ws) c 0 stop [] Q) :
    let file := parseFile fileName (String.ofList (spelled (w :: ws)))
    file.problems = [] ∧ ∃ root i e row, file.root = some root ∧ row.nodes = [some i] ∧
      file.tree.Is root .sourceFile 0 (byteLength (spelled (w :: ws)))
        (.sourceFile row (some e) fileName) ∧ Q i file.tree := by
  have read := h ((spelled (w :: ws)).length + 2) (.ofFunction true false)
  rw [Nat.add_right_comm] at read
  exact parseFile_statement fileName legible more keeps read

end Parser

end PathGuard
