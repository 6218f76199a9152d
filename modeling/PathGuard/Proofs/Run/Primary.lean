import PathGuard.Proofs.Run.Class
import PathGuard.Proofs.Span.Primary
/-!
# Running primary expressions

Of all primary expressions only those in parentheses are nested in their own kind.
-/

namespace PathGuard.Parser

open Known ParserState

variable {x : Room} {ready : Bool} {at_ : Lexer → Prop} {sub sub' : PhraseParser} {start : Nat}
  {k : NodeKind}

/-! ### Templates -/

theorem runs_templateSpanStep (tied : Tied x sub sub') (spans : List Child) (n : Nat) :
    Runs x true [.since n false] (templateSpanStep sub spans) (templateSpanStep sub' spans)
      (stepped (fun _ => []) n) := by
  refine .look looks_tokenStart fun start => ?_
  refine .steady (.within _ ((runs_expression tied).imp fun _ => .nil)) fun value => .isAt ?_ ?_
  · refine .rescan (fun l => IsLiteral l.kind) (fun s here => .template here.2) (fun _ => rfl)
      (fun l _ => ⟨_, rfl⟩) fun m => .look (looks_isAt _) fun ends => ?_
    refine .past (passes_takeLiteral fun l here => here) fun literal => ?_
    refine .keep (Q := plain) (.given (.add rfl) (.refl _)) fun span => ?_
    cases ends <;> exact .pure (.subset (by simp))
  · exact .steady (runs_expectMark _) fun _ => .pure .nil

theorem passes_template (tied : Tied x sub sub') (literal : ∀ l, at_ l → IsLiteral l.kind) :
    PassesAt x ready at_ (template sub) (template sub') plain := by
  intro n
  refine .isAt (passes_takeLiteral (fun l here => literal l here.1) n) ?_
  refine .look looks_tokenStart fun start => .past (passes_takeLiteral fun l here => literal l here.1)
    fun head => .steady (.repeatingPlain (runs_templateSpanStep tied) []) fun spans => ?_
  exact .given (P := [.since n true]) (RunsAt.retain (.add rfl)) (.subset (by simp))

/-! ### Brackets -/

theorem runs_parenthesized (tied : Tied x sub sub') (notEnd : ∀ l, at_ l → NotEnd l) :
    RunsAt x ready at_ [] (parenthesized sub) (parenthesized sub')
      fun c => [.low c 0 (2 * x.levels - 1 + 1)] := by
  refine .look looks_tokenStart fun start => .advance notEnd ?_
  refine .call (.within _ (runs_expression tied)) fun value => .steady (runs_expectMark _) fun _ => ?_
  exact .addDeeper (d := .inner) rfl rfl rfl nofun List.mem_concat_self (Nat.le_refl _) (inner_cap x)

theorem runs_spreadOrAssignment (tied : Tied x sub sub') (ordinary : k.isOrdinary = true) :
    RunsAt x true at_ [] (spreadOrAssignment sub k) (spreadOrAssignment sub' k) fun _ => [] := by
  refine .isAt (.look looks_tokenStart fun start => ?_) ((runs_assignment_sub tied).imp fun _ => .nil)
  refine .advance (fun l here => notEnd_mark here.2) ?_
  exact (runs_assignmentOrReport tied).call fun value => (RunsAt.add ordinary).imp fun _ => .nil

theorem runs_arrayStep (tied : Tied x sub sub') (elements : List Child) (n : Nat) :
    Runs x true [.since n false] (arrayStep sub elements) (arrayStep sub' elements)
      (stepped (fun _ => []) n) := by
  refine .kind fun k => .ite (fun _ => .pure .nil) fun _ => .ite (fun comma => ?_) fun _ => ?_
  · exact .past (passes_hole fun l here => here.2.trans comma) fun node => .pure (.subset (by simp))
  refine .steady (runs_spreadOrAssignment tied rfl) fun element => ?_
  refine .ite (fun _ => .steady (runs_reportHere _) fun _ => .pure .nil) fun _ => ?_
  exact .acceptMark (.pure (.subset (by simp))) (.pure .nil)

theorem runs_arrayLiteral (tied : Tied x sub sub') (notEnd : ∀ l, at_ l → NotEnd l) :
    RunsAt x ready at_ [] (arrayLiteral sub) (arrayLiteral sub') plain := by
  refine .look looks_tokenStart fun start => .advance notEnd ?_
  refine .steady (.within _ (.repeatingPlain (runs_arrayStep tied) [])) fun elements => ?_
  exact .steady (runs_expectMark _) fun _ => .add rfl

/-! ### Objects -/

theorem runs_shorthandProperty (tied : Tied x sub sub') {name : Child} :
    RunsAt x true at_ [] (shorthandProperty sub start name) (shorthandProperty sub' start name)
      plain := by
  refine .steady (runs_acceptMark _) fun hasEquals => ?_
  refine .merged <| .steady (.ite (fun _ => ?_) fun _ => .pure .nil) fun value => .add rfl
  exact (runs_assignmentOrReport tied).imp fun _ => .nil

theorem runs_namedObjectMember (tied : Tied x sub sub') (marks : MethodMarks) (shorthand : Bool)
    {name : Child} :
    RunsAt x true at_ [] (namedObjectMember sub start marks shorthand name)
      (namedObjectMember sub' start marks shorthand name) plain := by
  refine .isAt (runs_method tied (ordinary_method marks rfl) none marks _) (.acceptMark ?_ ?_)
  · exact .steady ((runs_assignmentOrReport tied).imp fun _ => .nil) fun value => .add rfl
  · rw [if_neg Bool.false_ne_true, if_neg Bool.false_ne_true]
    refine .ite (fun _ => runs_shorthandProperty tied) fun _ => ?_
    exact .steady (runs_expectMark _) fun _ => .pure .plain_none

theorem runs_objectMember (tied : Tied x sub sub') :
    RunsAt x true at_ [] (objectMember sub) (objectMember sub') fun _ => [] := by
  refine .look looks_tokenStart fun start => .isAt (runs_spreadOrAssignment tied rfl) ?_
  refine .steady runs_methodMarks fun marks => ?_
  refine .merged <| .look (either (Looks.closed.pure _) looks_atIdentifier) fun shorthand => ?_
  refine .steady ((RunsAt.unmarked (runs_propertyName tied)).imp fun _ => .nil) fun name => ?_
  refine .ite (fun _ => .steady (runs_reportHere _) fun _ => .pure .nil) fun _ => ?_
  exact (runs_namedObjectMember tied marks shorthand).imp fun _ => .nil

theorem runs_objectMemberStep (tied : Tied x sub sub') (members : List Child) (n : Nat) :
    Runs x true [.since n false] (objectMemberStep sub members) (objectMemberStep sub' members)
      (stepped (fun _ => []) n) := by
  refine .look looks_kind fun k => .ite (fun _ => .pure .nil) fun _ => ?_
  refine .steady (runs_objectMember tied) fun member => .ite (fun _ => .pure .nil) fun _ => ?_
  exact .acceptMark (.pure (.subset (by simp))) (.pure .nil)

theorem runs_objectLiteral (tied : Tied x sub sub')
    (spare : ready = true ∨ ∀ l, at_ l → l.kind = .mark .openBrace) :
    RunsAt x ready at_ [] (objectLiteral sub) (objectLiteral sub') plain := by
  refine .look looks_tokenCursor fun brace => .expectReady (by simp) spare ?_
  refine .steady (.within _ (.repeatingPlain (runs_objectMemberStep tied) [])) fun members => ?_
  refine .steady (runs_expectMark _) fun _ => .look (looks_spansLines _) fun multiLine => ?_
  exact .add rfl

/-! ### All together -/

theorem runs_importExpression (notEnd : ∀ l, at_ l → NotEnd l) :
    RunsAt x ready at_ [] importExpression importExpression plain := by
  refine .look looks_tokenStart fun start => .look looks_tokenEnd fun stop => ?_
  refine .advance notEnd (.acceptMark ?_ ?_)
  · exact .call (.unmarked runs_identifierName) fun name => .add rfl
  · refine .look (looks_isAt _) fun group => ?_
    exact .mergedUnless <| .steady (.ite (fun _ => .pure .nil) fun _ => runs_expectMark _) fun _ =>
      .addToken rfl

theorem runs_regularExpression
    (slash : ∀ l, at_ l → l.kind = .mark .slash ∨ l.kind = .mark .slashEquals) :
    RunsAt x ready at_ [] regularExpression regularExpression plain :=
  .rescan (fun l => IsLiteral l.kind) (fun _ here => .slash (slash _ here)) rescanSlash_first
    (fun _ here => ⟨_, rescanSlash_literal (slash _ here)⟩) (passes_takeLiteral fun _ here => here)

theorem runs_nameOrReport : RunsAt x ready at_ [] nameOrReport nameOrReport plain :=
  .look looks_atIdentifier fun _ => .ite (fun _ => runs_identifier) fun _ => runs_reportNone

theorem runs_primary (tied : Tied x sub sub') :
    RunsAt x ready at_ [] (primary sub) (primary sub')
      fun c => [.low c 0 (2 * x.levels - 1 + 1)] := by
  have literal {n : LiteralKind} : RunsAt x ready (fun l => at_ l ∧ l.kind = .literal n) []
      takeLiteral takeLiteral plain := .of_passes (passes_takeLiteral fun l here => ⟨_, here.2⟩)
  have word {w : Keyword} : RunsAt x ready (fun l => at_ l ∧ l.kind = .word w) []
      takeToken takeToken plain := .of_passes (passes_takeToken fun l here => notEnd_word here.2)
  have low {at_ : Lexer → Prop} {act act' : Parser Child} (h : RunsAt x ready at_ [] act act' plain) :
      RunsAt x ready at_ [] act act' fun c => [.low c 0 (2 * x.levels - 1 + 1)] :=
    h.imp fun _ => .of_plain
  refine .kind fun k => ?_
  split
  · exact low literal
  · exact low literal
  · exact low literal
  · exact low (.of_passes (passes_template tied fun l here => ⟨_, here.2⟩))
  · exact low (.of_passes (passes_template tied fun l here => ⟨_, here.2⟩))
  · exact low word
  · exact low word
  · exact low word
  · exact low word
  · exact low word
  · exact runs_parenthesized tied fun l here => notEnd_mark here.2
  · exact low (runs_arrayLiteral tied fun l here => notEnd_mark here.2)
  · exact low (runs_objectLiteral tied (.inr fun l here => here.2))
  · exact low (runs_functionExpression tied fun l here => .inl here.2)
  · refine .look looks_asyncFunctionAhead fun found => low ?_
    exact .ite (fun _ => runs_functionExpression tied fun l here => .inr here.2) fun _ => runs_nameOrReport
  · exact low (runs_classOf tied true (fun l here => here.2) rfl)
  · exact low (runs_importExpression fun l here => notEnd_word here.2)
  · exact low (runs_regularExpression fun l here => .inl here.2)
  · exact low (runs_regularExpression fun l here => .inr here.2)
  · exact low (.unmarked runs_identifierName)
  · exact low runs_nameOrReport

end PathGuard.Parser
