import PathGuard.Proofs.Grammar.Single
import PathGuard.Proofs.Token.Template
/-!
# Reading templates

A template becomes one literal, or a node with its head and one part for each substitution. At the
brace that closes a substitution the parser asks for another reading, and the lexer goes on with the
template there; so the pieces are read with the values that were written, however many there are.
-/

namespace PathGuard

namespace Tree

def IsSpan (t : Tree) (i : Nat) (x : Identifier) (chunk : List Char) (k : LiteralKind) : Prop :=
  ∃ start stop value literal,
    t.Is i .templateSpan start stop (.templateSpan (some value) (some literal)) ∧
      t.IsName value x.text ∧ t.IsLiteral literal k (String.ofList chunk)

/-- Whether nodes are the parts of a template in their order. Only the last one has the tail. -/
def AreSpans (t : Tree) : List Child → List (Identifier × List Char) → Prop
  | [], [] => True
  | some i :: nodes, (x, chunk) :: spans =>
    t.IsSpan i x chunk (templateKind false (!spans.isEmpty)) ∧ t.AreSpans nodes spans
  | _, _ => False

/-- Whether a node is a template: a literal, or a head with the parts behind it. -/
inductive IsTemplate (t : Tree) (i start stop : Nat) : Template → Prop where
  | whole {first : List Char} (is : t.IsLiteral i .template (String.ofList first)) :
      IsTemplate t i start stop ⟨first, []⟩
  | parted {first : List Char} {span : Identifier × List Char}
      {spans : List (Identifier × List Char)} {head : Nat} {row : NodeList}
      (is : t.Is i .templateExpression start stop (.template (some head) row))
      (heads : t.IsLiteral head .templateHead (String.ofList first))
      (parts : t.AreSpans row.nodes (span :: spans)) :
      IsTemplate t i start stop ⟨first, span :: spans⟩

variable {t t' : Tree} {i start stop : Nat}

theorem IsSpan.of_extends {x : Identifier} {chunk : List Char} {k : LiteralKind}
    (h : t.IsSpan i x chunk k) (grows : t.Extends t') : t'.IsSpan i x chunk k := by
  obtain ⟨start, stop, value, literal, is, name, text⟩ := h
  exact ⟨start, stop, value, literal, is.of_extends grows, name.of_extends grows,
    text.of_extends grows⟩

theorem AreSpans.of_extends {nodes : List Child} {spans : List (Identifier × List Char)}
    (h : t.AreSpans nodes spans) (grows : t.Extends t') : t'.AreSpans nodes spans := by
  fun_induction AreSpans t nodes spans with
  | case1 => trivial
  | case2 i nodes x chunk spans ih => exact ⟨h.1.of_extends grows, ih h.2⟩
  | case3 => exact h.elim

theorem IsTemplate.of_extends {template : Template} (h : t.IsTemplate i start stop template)
    (grows : t.Extends t') : t'.IsTemplate i start stop template := by
  cases h with
  | whole is => exact .whole (is.of_extends grows)
  | parted is heads parts =>
    exact .parted (is.of_extends grows) (heads.of_extends grows) (parts.of_extends grows)

end Tree

namespace Parser

variable {sub : PhraseParser} {offset depth : Nat} {ws : List Word} {c : Context}
  {spans : List (Identifier × List Char)} {x : Identifier} {chunk : List Char} {s : ParserState}

/-! ### Substitutions -/

def ReadsSubstituted (sub : PhraseParser) (c : Context) (depth : Nat) : Prop :=
  ∀ (x : Identifier) (offset : Nat) (rest : List Char),
    Reads (sub .assignment) offset [x.word false] c.allowIn depth (offset + (x.word false).size) []
      (fun i t => t.IsName i x.text) (.brace rest)

theorem readsSubstituted_phrase {fuel : Nat} (room : depth + 1 < maxDepth) :
    ReadsSubstituted (phrase (fuel + 1)) c depth := by
  intro x offset rest
  refine reads_assignment room rfl nofun rfl fun s at_ => ?_
  obtain ⟨i, s', run, after, grows, is⟩ := reads_name rfl rfl s at_
  exact ⟨i, s', run, after, grows, _, _, is⟩

theorem At.rescanTemplate (legible : Legible ws)
    (at_ : At offset [] c depth s (.brace
      (templateText chunk ++ (templateEnd (!spans.isEmpty) ++ (substituted spans ++ spelled ws))))) :
    ∃ s', rescan Lexer.rescanTemplate .unterminatedTemplate s = ((), s') ∧ s'.tree = s.tree ∧
      At offset (templateWord false (!spans.isEmpty) chunk :: nextWords ws spans) c depth s'
        (nextEnding (spelled ws) spans) := by
  have stands := Lexer.Ends.rescanTemplate at_.stands (length_nextWords legible)
    fun l' skips here => Lexer.scan_nextWords legible skips here
  let s' : ParserState :=
    { s with lexer := s.lexer.rescanTemplate, readings := s.lexer.rescanTemplate :: s.readings }
  have after : At offset (templateWord false (!spans.isEmpty) chunk :: nextWords ws spans) c depth s'
      (nextEnding (spelled ws) spans) :=
    ⟨stands, at_.previous, at_.problems, at_.context, at_.depth, at_.pools⟩
  refine ⟨s', ?_, rfl, after⟩
  rw [rescan, reread, run_bind (run_modify _ s), run_bind (run_recordReading _)]
  change ((Parser.unterminated >>= fun _ => _) : Parser Unit) s' = _
  rw [run_bind after.unterminated]
  rfl

theorem run_templateSpanStep (names : ReadsSubstituted sub c depth) (legible : Legible ws)
    (at_ : At offset [x.word false] c depth s (nextEnding (spelled ws) ((x, chunk) :: spans)))
    (acc : List Child) :
    ∃ i s', templateSpanStep sub acc s =
        (if spans.isEmpty then .done (some i :: acc) else .yield (some i :: acc), s') ∧
      At (offset + (x.word false).size + (templateWord false (!spans.isEmpty) chunk).size)
        (nextWords ws spans) c depth s' (nextEnding (spelled ws) spans) ∧
      s.tree.Extends s'.tree ∧
      s'.tree.IsSpan i x chunk (templateKind false (!spans.isEmpty)) := by
  obtain ⟨value, s₁, run₁, at₁, grows₁, name⟩ :=
    (reads_expression rfl (names x offset _)).within s at_
  obtain ⟨s₂, run₂, same₂, at₂⟩ := At.rescanTemplate legible at₁
  obtain ⟨literal, s₃, run₃, at₃, grows₃, text⟩ := reads_literal rfl s₂ at₂
  obtain ⟨i, s₄, run₄, at₄, grows₄, is⟩ := at₃.add (k := .templateSpan)
    (r := .templateSpan (some value) (some literal)) rfl 0 (offset + byteLength (x.word false).margin)
  rw [same₂] at grows₃
  refine ⟨i, s₄, ?_, at₄, grows₁.trans (grows₃.trans grows₄), _, _, value, literal, is,
    name.of_extends (grows₃.trans grows₄), text.of_extends grows₄⟩
  have brace : atMark .closeBrace s₁ = (true, s₁) := at₁.isAt _
  have ends : isAt (.literal .templateTail) s₂ = (spans.isEmpty, s₂) := by
    rw [at₂.isAt]
    cases spans <;> rfl
  have added : add .templateSpan (offset + byteLength (x.word false).margin)
      (.templateSpan (some value) (some literal)) s₃ = (some i, s₄) := run₄
  rw [templateSpanStep, run_bind at_.tokenStart, run_bind run₁, run_bind brace, if_pos rfl,
    run_bind run₂, run_bind ends, run_bind run₃, run_bind added]
  rfl

theorem byteLength_substituted (x : Identifier) (chunk : List Char)
    (spans : List (Identifier × List Char)) :
    byteLength (substituted ((x, chunk) :: spans)) =
      (x.word false).size + (templateWord false (!spans.isEmpty) chunk).size +
        byteLength (substituted spans) := by
  have name : (x.word false).size = byteLength x.chars := Nat.zero_add _
  have piece : (templateWord false (!spans.isEmpty) chunk).size =
      byteLength ('\x7d' :: (templateText chunk ++ templateEnd (!spans.isEmpty))) := Nat.zero_add _
  rw [name, piece, ← byteLength_append, ← byteLength_append, substituted, List.append_assoc,
    List.cons_append, List.append_assoc]

theorem run_templateSpans (names : ReadsSubstituted sub c depth) (legible : Legible ws)
    (bound : List Char) (enough : spans.length ≤ bound.length)
    (at_ : At offset [x.word false] c depth s (nextEnding (spelled ws) ((x, chunk) :: spans)))
    (acc : List Child) :
    ∃ nodes s', repeatWithin (templateSpanStep sub) bound acc s = (nodes.reverse ++ acc, s') ∧
      At (offset + byteLength (substituted ((x, chunk) :: spans))) ws c depth s' ∧
      s.tree.Extends s'.tree ∧ s'.tree.AreSpans nodes ((x, chunk) :: spans) := by
  induction spans generalizing x chunk offset s acc bound with
  | nil =>
    obtain ⟨i, s', run, after, grows, span⟩ := run_templateSpanStep names legible at_ acc
    rw [byteLength_substituted, ← Nat.add_assoc, ← Nat.add_assoc]
    exact ⟨[some i], s', run_repeatWithin_done run bound, after, grows, span, trivial⟩
  | cons next spans ih =>
    obtain ⟨b, bound, rfl⟩ := List.exists_cons_of_length_pos (Nat.zero_lt_of_lt enough)
    obtain ⟨y, behind⟩ := next
    obtain ⟨i, s₁, run₁, at₁, grows₁, span⟩ := run_templateSpanStep names legible at_ acc
    obtain ⟨nodes, s₂, run₂, at₂, grows₂, others⟩ :=
      ih bound (Nat.le_of_succ_le_succ enough) at₁ (some i :: acc)
    rw [byteLength_substituted, ← Nat.add_assoc, ← Nat.add_assoc]
    refine ⟨some i :: nodes, s₂, ?_, at₂, grows₁.trans grows₂, span.of_extends grows₂, others⟩
    rw [repeatWithin, run_bind run₁, List.reverse_cons, List.append_assoc]
    exact run₂

/-! ### Templates -/

theorem length_le_substituted (spans : List (Identifier × List Char)) :
    spans.length ≤ (substituted spans).length := by
  induction spans with
  | nil => exact Nat.le_refl 0
  | cons span spans ih =>
    obtain ⟨x, chunk⟩ := span
    simp only [substituted, List.length_cons, List.length_append]
    omega

theorem reads_template (names : ReadsSubstituted sub c depth) (legible : Legible ws) (t : Template) :
    Reads (template sub) offset (t.head :: nextWords ws t.spans) c depth
      (offset + byteLength t.chars) ws
      (fun i tree => tree.IsTemplate i offset (offset + byteLength t.chars) t)
      (nextEnding (spelled ws) t.spans) .endOfText := by
  have size : t.head.size + byteLength (substituted t.spans) = byteLength t.chars := by
    have head : t.head.size = byteLength t.head.chars := Nat.zero_add _
    rw [head, t.chars_eq, byteLength_append]
  obtain ⟨first, spans⟩ := t
  intro s at_
  cases spans with
  | nil =>
    obtain ⟨i, s', run, after, grows, is⟩ := reads_literal rfl s at_
    have whole : isAt (.literal .template) s = (true, s) := at_.isAt _
    rw [← size]
    refine ⟨i, s', ?_, after, grows, .whole is⟩
    rw [template, run_bind whole]
    exact run
  | cons span spans =>
    obtain ⟨x, chunk⟩ := span
    obtain ⟨head, s₁, run₁, at₁, grows₁, heads⟩ := reads_literal rfl s at_
    obtain ⟨left, textLeft, enough⟩ := at₁.textLeft_ending
    have few : spans.length ≤ left.length := by
      have short := length_le_substituted spans
      simp only [nextEnding, Ending.brace, List.length_cons, List.length_append] at enough
      omega
    obtain ⟨nodes, s₂, run₂, at₂, grows₂, parts⟩ := run_templateSpans names legible left few at₁ []
    rw [Nat.add_assoc, size] at at₂
    rw [List.append_nil] at run₂
    obtain ⟨i, s₃, run₃, at₃, grows₃, is⟩ := at₂.add (k := .templateExpression)
      (r := .template (some head) (.ofNodes nodes)) rfl 0 offset
    refine ⟨i, s₃, ?_, at₃, grows₁.trans (grows₂.trans grows₃),
      .parted is (heads.of_extends (grows₂.trans grows₃)) (parts.of_extends grows₃)⟩
    have other : isAt (.literal .template) s = (false, s) := at_.isAt _
    have all : repeating (templateSpanStep sub) [] s₁ = (nodes.reverse, s₂) := by
      rw [repeating, run_bind textLeft]
      exact run₂
    rw [template, run_bind other, if_neg Bool.false_ne_true, run_bind at_.tokenStart, run_bind run₁,
      run_bind all, List.reverse_reverse]
    exact run₃

theorem reads_template_leftHandSide (names : ReadsSubstituted sub c depth) (legible : Legible ws)
    (ends : endsOperand (headKind ws) = true) (t : Template) :
    Reads (leftHandSide sub) offset (t.head :: nextWords ws t.spans) c depth
      (offset + byteLength t.chars) ws
      (fun i tree => tree.IsTemplate i offset (offset + byteLength t.chars) t)
      (nextEnding (spelled ws) t.spans) .endOfText := by
  intro s at_
  obtain ⟨i, s', run, after, grows, is⟩ := reads_template names legible t s at_
  refine ⟨i, s', ?_, after, grows, is⟩
  have begins : primary sub s = template sub s := by
    rw [primary, run_bind at_.kind, headKind, Template.head, templateWord]
    cases t.spans <;> rfl
  have notNew : t.head.kind ≠ .word .newWord := by
    intro new
    cases new
  exact run_leftHandSide at_ notNew (begins.trans run)
    (run_repeatWithin_done (linkStep_done after ends _ _) _)

theorem reads_template_statement (fuel offset : Nat) (c : Context) (room : depth + 5 < maxDepth)
    (t : Template) :
    let semicolon := markWord .semicolon false
    Reads (phrase (fuel + 3) .statement) offset (t.head :: nextWords [semicolon] t.spans) c depth
      (offset + byteLength t.chars + semicolon.size) []
      (fun i tree => ∃ e, tree.IsTemplate e offset (offset + byteLength t.chars) t ∧
        tree.Is i .expressionStatement offset (offset + byteLength t.chars + semicolon.size)
          (.expressionStatement (some e)))
      (nextEnding (spelled [semicolon]) t.spans) .endOfText := by
  intro semicolon
  have legible : Legible [semicolon] := ⟨legible_alone rfl false _, trivial⟩
  have noArrow : headKind (nextWords [semicolon] t.spans)
      (nextEnding (spelled [semicolon]) t.spans) ≠ .mark .arrow := by
    cases t.spans <;> exact nofun
  have names : ReadsSubstituted (phrase (fuel + 1)) c (depth + 1 + 2) := readsSubstituted_phrase (by omega)
  have value : Reads (phrase (fuel + 2) .assignment) offset (t.head :: nextWords [semicolon] t.spans) c
      (depth + 1) (offset + byteLength t.chars) [semicolon]
      (fun i tree => tree.IsTemplate i offset (offset + byteLength t.chars) t)
      (nextEnding (spelled [semicolon]) t.spans) .endOfText :=
    reads_assignment (by omega) rfl noArrow rfl (reads_template_leftHandSide names legible rfl t)
  exact reads_statement_of_begins (by omega) .literal (reads_expressionStatement
    (fun _ _ _ is grows => is.of_extends grows) (endsStatement_semicolon _) value)

end Parser

/-- A template is parsed without problems, as one statement that holds it: as a literal with its text
when there are no substitutions, and otherwise with the text of each of its pieces and the identifiers
between them. -/
theorem parseFile_template (fileName : String) (t : Template) :
    let text := t.chars ++ [';']
    let file := parseFile fileName (String.ofList text)
    file.problems = [] ∧ ∃ root row last i e,
      file.root = some root ∧ row.nodes = [some i] ∧
      file.tree.Is root .sourceFile 0 (byteLength text) (.sourceFile row (some last) fileName) ∧
      file.tree.Is i .expressionStatement 0 (byteLength text) (.expressionStatement (some e)) ∧
      file.tree.IsTemplate e 0 (byteLength t.chars) t := by
  intro text file
  have legible : Legible [markWord .semicolon false] := ⟨legible_alone rfl false _, trivial⟩
  have stands : (ParserState.start text).lexer.scan.Stands 0
      (t.head :: nextWords [markWord .semicolon false] t.spans)
      (nextEnding (spelled [markWord .semicolon false]) t.spans) :=
    Lexer.scan_template legible rfl t rfl
  have whole : 0 + byteLength t.chars + (markWord .semicolon false).size = byteLength text := by
    rw [byteLength_append, Nat.zero_add]
    rfl
  have statement := Parser.reads_template_statement (text.length + 499) 0 (.ofFunction true false)
    (by decide : 0 + 5 < maxDepth) t
  obtain ⟨fine, root, i, last, row, rooted, nodes, is, e, template, isStatement⟩ :=
    Parser.parseFile_of_stands fileName stands nofun
      (fun _ _ _ ⟨e, is, isStatement⟩ grows =>
        ⟨e, is.of_extends grows, isStatement.of_extends grows⟩) statement
  rw [whole] at isStatement
  rw [Nat.zero_add] at template
  exact ⟨fine, root, row, last, i, e, rooted, nodes, is, isStatement, template⟩

end PathGuard
