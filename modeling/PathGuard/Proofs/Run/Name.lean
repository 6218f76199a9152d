import PathGuard.Proofs.Run.Rules
/-!
# Running names and expressions

What every phrase keeps to: at each level of nesting a chain gets longer by a few links at most, so the
levels that are left bound it. The operators between operands bind ever more tightly along a chain of
right operands, so such a chain has a bound of its own at one level.
-/

namespace PathGuard

namespace Phrase

/-- How long the chains of right operands are that a phrase begins, when so many levels are left. -/
def right (levels : Nat) : Phrase → Nat
  | .assignment => levels + 11
  | .binary least => 11 - least
  | _ => 0

/-- How long all other chains are that a phrase begins, when so many levels are left. -/
def rest (levels : Nat) : Phrase → Nat
  | .assignment => 2 * levels - 1
  | .unary | .binary _ | .newExpression => 2 * levels
  | .leftHandSide => 2 * levels - 1 + 1
  | .statement | .binding => 0

end Phrase

namespace Parser

open Known

/-- Whether two parsers of phrases do the same for one who has a phrase to spare, at any depth. -/
def Tied (x : Room) (sub sub' : PhraseParser) : Prop :=
  ∀ (depth : Nat) (p : Phrase), RunsAt { x with depth := depth } true p.begins [] (sub p) (sub' p)
    fun c => [.low c (p.right (maxDepth - depth)) (p.rest (maxDepth - depth))]

variable {β : Type} {x : Room} {ready : Bool} {at_ : Lexer → Prop} {P : List Known}
  {sub sub' : PhraseParser} {R : β → List Known} {right rest n : Nat}

theorem Tied.at' (tied : Tied x sub sub') (p : Phrase) :
    RunsAt x true p.begins [] (sub p) (sub' p)
      fun c => [.low c (p.right x.levels) (p.rest x.levels)] := tied x.depth p

theorem Tied.deeper (tied : Tied x sub sub') : Tied x.deeper sub sub' := tied

theorem right_cap (x : Room) (h : n ≤ x.levels + 12) : n ≤ 2 * maxDepth := by
  have levels := x.levels_le
  unfold maxDepth at *
  omega

theorem rest_cap (x : Room) (h : n ≤ 2 * x.levels) : n ≤ 2 * maxDepth := by
  have levels := x.levels_le
  omega

theorem inner_cap (x : Room) : 2 * x.levels - 1 + 1 ≤ 2 * maxDepth := by
  have levels := x.levels_le
  unfold maxDepth at *
  omega

/-! ### Expressions -/

theorem runs_assignment_sub (tied : Tied x sub sub') :
    RunsAt x true at_ [] (sub .assignment) (sub' .assignment)
      fun c => [.low c (x.levels + 11) (2 * x.levels - 1)] :=
  (tied.at' .assignment).any

theorem runs_assignmentOrReport (tied : Tied x sub sub') :
    RunsAt x true at_ [] (assignmentOrReport sub) (assignmentOrReport sub')
      fun c => [.low c (x.levels + 11) (2 * x.levels - 1)] := by
  refine (runs_assignment_sub tied).call fun value => .ite (fun _ => ?_) fun _ => .pure (.refl _)
  exact .steady (runs_reportHere _) fun _ => .pure (.refl _)

theorem runs_commaStep (tied : Tied x sub sub') (start : Nat) (left : Child) (n : Nat) :
    Runs x ready [.since n false, .low left (x.levels + 12) (2 * x.levels - 1)]
      (commaStep sub start left) (commaStep sub' start left)
      (stepped (fun left => [.low left (x.levels + 12) (2 * x.levels - 1)]) n) := by
  refine .acceptMark ?_ (.pure (.subset (List.subset_cons_self _ _)))
  refine (runs_assignmentOrReport tied).call fun right => ?_
  refine .keep (Q := fun node => [.low node (x.levels + 12) (2 * x.levels - 1)])
    (.addRight List.mem_concat_self (Nat.le_refl _) (right_cap x (Nat.le_refl _))) fun node => ?_
  exact .pure (.subset (by simp))

theorem runs_expression (tied : Tied x sub sub') :
    RunsAt x true at_ [] (expression sub) (expression sub')
      fun c => [.low c (x.levels + 12) (2 * x.levels - 1)] := by
  refine .look looks_tokenStart fun start => (runs_assignment_sub tied).call fun left => ?_
  refine .ite (fun _ => .steady (runs_reportHere _) fun _ => .pure (.one (gives_none _ _))) fun _ => ?_
  refine .given (.repeating (I := fun left => [.low left (x.levels + 12) (2 * x.levels - 1)])
    (runs_commaStep tied start) left) (.one (gives_low List.mem_concat_self (by omega) (Nat.le_refl _)))

theorem runs_initializer (tied : Tied x sub sub') :
    RunsAt x ready at_ [] (initializer sub) (initializer sub') fun _ => [] :=
  .acceptMark ((runs_assignmentOrReport tied).imp fun _ => .nil) (.pure .nil)

/-! ### Single tokens -/

theorem passes_takeIdentifier {k : TokenKind} (notEnd : ∀ l, at_ l → NotEnd l) :
    PassesAt x ready at_ (takeIdentifier k) (takeIdentifier k) plain := by
  intro n
  refine .look looks_tokenStart fun start => .look looks_tokenEnd fun stop => ?_
  refine .look looks_tokenValue fun text => .advance notEnd ?_
  exact RunsAt.retain (.addSpanned rfl)

theorem passes_takeLiteral (literal : ∀ l, at_ l → IsLiteral l.kind) :
    PassesAt x ready at_ takeLiteral takeLiteral plain := by
  intro n
  refine .look looks_kind fun k => .look looks_tokenStart fun start => ?_
  refine .look looks_tokenEnd fun stop => .look looks_tokenValue fun value => ?_
  refine .look looks_tokenText fun text => .advance (fun l here ended => ?_) ?_
  · obtain ⟨k, there⟩ := literal l here
    exact notEnd_literal there ended
  · exact RunsAt.retain (.addSpanned rfl)

theorem passes_takeToken (notEnd : ∀ l, at_ l → NotEnd l) :
    PassesAt x ready at_ takeToken takeToken plain := by
  intro n
  refine .look looks_kind fun k => .look looks_tokenStart fun start => ?_
  exact .look looks_tokenEnd fun stop => .advance notEnd (RunsAt.retain (.addToken rfl))

theorem runs_reportNone {cause : SyntaxError} :
    RunsAt x ready at_ P (reportHere cause >>= fun _ => pure none)
      (reportHere cause >>= fun _ => pure none) plain :=
  .report (.pure .plain_none)

theorem runs_identifier : RunsAt x ready at_ P identifier identifier plain :=
  .ask looks_atIdentifier notEnd_of_atIdentifier
    (.of_passes (passes_takeIdentifier fun _ here => here.2)) runs_reportNone

/-! ### Names of properties -/

def named (n : Nat) (child : Child) : List Known := .since n child.isSome :: plain child

theorem covers_named (n : Nat) (child : Child) :
    Covers (.since n true :: plain child) (named n child) :=
  .cons (gives_since (List.mem_cons_self ..) _) (.subset (List.subset_cons_self _ _))

theorem covers_unnamed (n : Nat) : Covers [.since n false] (named n none) :=
  .cons (gives_mem (List.mem_cons_self ..)) .plain_none

theorem RunsAt.unmarked {act act' : Parser Child}
    (h : ∀ n, RunsAt x ready at_ [.since n false] act act' (named n)) :
    RunsAt x ready at_ [] act act' plain :=
  .since fun n => (h n).imp fun _ => .subset (List.subset_cons_self _ _)

theorem notEnd_of_isIdentifierOrWord {l : Lexer} {k : TokenKind} (here : l.kind = k)
    (name : k.isIdentifierOrWord = true) : NotEnd l := by
  intro ended
  rw [← here, ended] at name
  cases name

theorem runs_identifierName (n : Nat) :
    RunsAt x ready at_ [.since n false] identifierName identifierName (named n) := by
  refine .kind fun k => .ite (fun name => ?_) fun _ => .ite (fun name => ?_) fun _ => ?_
  · refine RunsAt.imp (passes_takeIdentifier (fun l here ended => ?_) n) (covers_named n)
    exact TokenKind.noConfusion (name.symm.trans (here.2.symm.trans ended))
  · exact RunsAt.imp (passes_takeIdentifier (fun l here => notEnd_of_isIdentifierOrWord here.2 name) n)
      (covers_named n)
  · exact .report (.pure (covers_unnamed n))

theorem passes_computedName (tied : Tied x sub sub') (notEnd : ∀ l, at_ l → NotEnd l) :
    PassesAt x ready at_ (computedName sub) (computedName sub') plain := by
  intro n
  refine .look looks_tokenStart fun start => .advance notEnd ?_
  refine .call (.within _ (runs_assignmentOrReport tied)) fun value => ?_
  refine .steady (runs_expectMark _) fun _ => ?_
  exact .given (P := [.since n true]) (RunsAt.retain (.add rfl)) (.subset (by simp))

theorem runs_propertyName (tied : Tied x sub sub') (n : Nat) :
    RunsAt x ready at_ [.since n false] (propertyName sub) (propertyName sub') (named n) := by
  have literal {at_ : Lexer → Prop} (there : ∀ l, at_ l → IsLiteral l.kind) :
      RunsAt x ready at_ [.since n false] takeLiteral takeLiteral (named n) :=
    (passes_takeLiteral there n).imp (covers_named n)
  refine .kind fun k => ?_
  split
  · exact literal fun l here => ⟨_, here.2⟩
  · exact literal fun l here => ⟨_, here.2⟩
  · exact literal fun l here => ⟨_, here.2⟩
  · exact (passes_computedName tied (fun l here => notEnd_mark here.2) n).imp (covers_named n)
  · exact runs_identifierName n

end Parser

end PathGuard
