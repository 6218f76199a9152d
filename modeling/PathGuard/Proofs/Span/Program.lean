import PathGuard.Grammar.Program
import PathGuard.Proofs.Span.Module
/-!
# Where the nodes of a text lie

Every rule of the grammar lays what its phrase should. The fuel is enough for all phrases of a text,
since a phrase inside another one is deeper or begins where less of the text is left.
-/

namespace PathGuard

open Item

namespace Parser

variable {x : Setting} {ready : Bool} {at_ : Lexer → Prop} {sub : PhraseParser}

theorem lays_labeledOrExpression (hsub : LaysPhrases x sub) :
    LaysAt x true at_ [] (labeledOrExpression sub) (single .firm) := by
  refine .look looks_atIdentifier fun named => ?_
  extract_lets join
  have joined (labeled : Bool) : Lays x true [] (join labeled) (single .firm) := by
    unfold join
    exact decided (fun _ => lays_labeledStatement hsub) fun _ => lays_expressionStatement hsub
  refine decided (fun _ => ?_) fun _ => atOnce (joined false).any
  exact .look looks_peek fun next => atOnce (joined _).any

theorem lays_statement (hsub : LaysPhrases x sub) :
    LaysAt x ready at_ [] (statement sub) (single .firm) := by
  refine .nested (.kind fun k _ => ?_) (.lost .nil)
  split
  · exact lays_block hsub
  · exact lays_emptyStatement fun l here => notEnd_mark here.2
  · exact lays_variableStatement hsub fun l here => notEnd_word here.2
  · exact lays_variableStatement hsub fun l here => notEnd_word here.2
  · refine .look looks_letDeclarationAhead fun found => decided (fun _ => ?_) fun _ => ?_
    · exact lays_variableStatement hsub fun l here => notEnd_word here.2
    · exact lays_labeledOrExpression hsub
  · exact lays_functionDeclaration hsub false
  · refine .look looks_asyncFunctionAhead fun found => ?_
    exact decided (fun _ => lays_functionDeclaration hsub false) fun _ =>
      lays_labeledOrExpression hsub
  · exact lays_classOf hsub false (fun l here => here.2) rfl (by simp)
  · exact lays_ifStatement hsub fun l here => notEnd_word here.2
  · exact lays_doStatement hsub fun l here => notEnd_word here.2
  · exact lays_whileStatement hsub fun l here => notEnd_word here.2
  · exact lays_forStatement hsub fun l here => notEnd_word here.2
  · exact lays_jumpStatement rfl rfl fun l here => notEnd_word here.2
  · exact lays_jumpStatement rfl rfl fun l here => notEnd_word here.2
  · exact lays_returnOrThrow hsub rfl rfl fun l here => notEnd_word here.2
  · exact lays_returnOrThrow hsub rfl rfl fun l here => notEnd_word here.2
  · exact lays_tryStatement hsub fun l here => notEnd_word here.2
  · exact lays_switchStatement hsub fun l here => notEnd_word here.2
  · exact lays_debuggerStatement fun l here => notEnd_word here.2
  · refine .look looks_importExpressionAhead fun found => decided (fun _ => ?_) fun _ => ?_
    · exact lays_expressionStatement hsub
    · exact lays_importDeclaration hsub fun l here => notEnd_word here.2
  · exact lays_exportDeclaration hsub fun l here => notEnd_word here.2
  · exact lays_labeledOrExpression hsub

theorem lays_rule (hsub : LaysPhrases x sub) (p : Phrase) :
    LaysAt x ready p.begins [] (rule sub p) (single .firm) := by
  cases p with
  | statement => exact lays_statement hsub
  | assignment => exact lays_assignment hsub
  | unary => exact lays_unary hsub
  | binary least => exact lays_binary hsub least
  | leftHandSide => exact lays_leftHandSide hsub
  | newExpression => exact lays_newExpression hsub fun l here => notEnd_word here
  | binding => exact lays_binding hsub

/-- One who has a phrase to spare never runs out of fuel, unless a problem was noted before. -/
theorem lays_phrase (text : List Char) (fuel : Nat) : LaysPhrases ⟨text, fuel⟩ (phrase fuel) := by
  induction fuel with
  | zero =>
    intro p b d Γ s affords _ stands
    have wrong : s.problems ≠ [] := fun clean => by
      obtain ⟨m, hm, -⟩ := stands.room clean
      exact absurd (affords m hm) (by simp)
    rw [List.append_nil] at stands
    exact (Covers.lost .nil).stands (stands.push_note false fun clean => absurd clean wrong)
  | succ fuel ih =>
    intro p b d Γ s affords here stands
    have inside : Setting.Affords ⟨text, fuel⟩ false b := by
      intro m hm
      have := affords m hm
      simp only [Bool.toNat_true, Bool.toNat_false] at *
      omega
    exact lays_rule ih p b d Γ s inside here stands

end Parser

theorem Stands.close {text : List Char} {b : Option Nat} {d : Nat} {s : ParserState}
    {statements : NodeList} (h : Stands text b d (several .firm statements.nodes) s)
    (fileName : String) :
    let grown := s.tree.addToken (.token .endOfFile) (byteLength text) (byteLength text)
    (grown.2.add .sourceFile 0 0 (byteLength text)
      (.sourceFile statements (some grown.1) fileName)).2.Placed text (s.problems = []) := by
  intro grown
  have ends : IsBoundary text (byteLength text) := ⟨text, List.prefix_rfl, rfl⟩
  have placed : grown.2.Placed text (s.problems = []) :=
    h.placed.addToken rfl ends ends fun _ never => Bool.noConfusion never
  have later := h.grow (Tree.addToken_extends ..) h.pools placed
  have last : grown.2.nodes[grown.1]? = some ⟨.token .endOfFile, 0, byteLength text,
      byteLength text, none, none⟩ := Array.getElem?_push_size
  have fills : Item.Fills (several .firm statements.nodes) (Record.rowPlaces statements.nodes) :=
    .several rfl _
  have spans := spans_of_parts grown.2 (several .firm statements.nodes)
  -- the end of the text is the last part of the file
  have listed : ((Record.rowPlaces statements.nodes ++ [(some grown.1, true)]).filterMap Prod.fst) =
      (several .firm statements.nodes).filterMap child? ++ [grown.1] := by
    rw [List.filterMap_append, fills.parts]
    rfl
  refine placed.add later.pools 0 ⟨rfl, ⟨[], List.nil_prefix, rfl⟩, ends, ?_, ?_⟩
    (fun _ never => Bool.noConfusion never) fun clean => Record.complete_of_plain rfl ?_
  · change ∀ c ∈ ((Record.rowPlaces _ ++ [(some grown.1, true)]).filterMap Prod.fst), _
    rw [listed]
    intro c hc
    rcases List.mem_append.1 hc with old | new
    · obtain ⟨p, hp, child⟩ := List.mem_filterMap.1 old
      obtain ⟨part, _, rfl⟩ := List.mem_map.1 hp
      obtain ⟨n, hn, stop, -⟩ := (later.holds _ hp).1 c child
      exact ⟨n, hn, Nat.zero_le _, Nat.le_trans stop later.footing.boundary.le⟩
    · obtain rfl := List.mem_singleton.1 new
      exact ⟨_, last, Nat.zero_le _, Nat.le_refl _⟩
  · change (((Record.rowPlaces _ ++ [(some grown.1, true)]).filterMap Prod.fst).filterMap
      grown.2.span?).Pairwise _
    have only : [grown.1].filterMap grown.2.span? = [(byteLength text, byteLength text)] := by
      simp [Tree.span?_of_node last]
    rw [listed, List.filterMap_append, only, List.pairwise_append]
    refine ⟨List.Pairwise.sublist spans later.lined, List.pairwise_singleton _ _, fun a ha c hc => ?_⟩
    obtain ⟨p, hp, span⟩ := List.mem_filterMap.1 (spans.subset ha)
    have before := (later.holds p hp).before later.footing span
    rw [List.mem_singleton.1 hc]
    exact Nat.le_trans before later.footing.sits.first.boundary.le
  · intro p hp
    rcases List.mem_append.1 hp with old | new
    · exact fills.complete later.holds clean p old
    · rw [List.mem_singleton.1 new]
      exact fun _ => Option.some_ne_none _

theorem Parser.placed_program (fileName : String) (text : List Char) :
    let s := (program fileName text (.start text)).2
    s.tree.Placed text (s.problems = []) := by
  let first : ParserState := behindToken (.start text)
  obtain ⟨sits, -⟩ := Lexer.sits_scan (l := Lexer.start text true) rfl rfl (.refl _)
  have footing : first.Footing text := {
    sits := sits
    boundary := ⟨[], List.nil_prefix, rfl⟩
    behind := Nat.zero_le _
    noted := fun noted => absurd rfl noted }
  have entered : Stands text (some (text.length + maxDepth)) 0 [] first := {
    footing := footing
    room := fun _ => ⟨_, rfl, Nat.add_le_add_right sits.first.length_le _⟩
    atDepth := rfl
    deep := Nat.zero_le _
    pools := Tree.empty_sound.pools
    placed := fun i n hn => by simp [first, behindToken, ParserState.start, Tree.empty] at hn
    holds := fun p hp => by cases hp
    lined := .nil }
  have stands := entered.onward (advance_onward footing).1
  let x : Setting := ⟨text, text.length + maxDepth + 2⟩
  have affords : x.Affords true (some (text.length + maxDepth)) := by
    intro m hm
    obtain rfl := Option.some.inj hm
    exact Nat.le_succ _
  have lays : Lays x true [] (statementList (phrase x.fuel) fun _ => false) fun statements =>
      several .firm statements.nodes := lays_statementList (lays_phrase x.text x.fuel) _
  exact (lays _ _ [] _ affords trivial stands).close fileName

end PathGuard
