import PathGuard.Grammar.Operator
import PathGuard.Proofs.Ban.Primary
import PathGuard.Proofs.Grammar.Operator
/-!
# Operators and arrow functions under the ban on `in`

The ban is asked for in one place: where the operator behind an operand is an `in`. Without the ban
the operator is read, and the node made of it is a bare `in`. With the ban the operand is all there
is.
-/

namespace PathGuard

namespace Parser

open Spot

variable {sub : PhraseParser} {start : Nat} {k : NodeKind}

/-! ### Operators -/

theorem minds_operatorBehind (mind : Minding sub) : Minds [] (operatorBehind sub) value := by
  refine .neutral neutral_tokenStart fun start => (minds_leftHandSide mind).call fun operand => ?_
  refine .neutral neutral_kind fun k => .neutral neutral_afterLineBreak fun broken => ?_
  refine decided (fun _ => .neutral Neutral.moving.advance fun _ => ?_) fun _ => .pure (.refl _)
  exact .add rfl nofun rfl fun _ => rfl

theorem minds_unary (mind : Minding sub) : Minds [] (unary sub) value := by
  refine .nested (.neutral neutral_tokenStart fun start => .neutral neutral_kind fun k => ?_)
  refine .context (fun _ => rfl) fun c => ?_
  split
  · next node found =>
    refine .neutral Neutral.moving.advance fun _ =>
      Minds.call (Q := value) (mind .unary) fun operand => ?_
    refine mergedWhen <| .neutral (either (Neutral.moving.reportHere _) (.pure _)) fun _ => ?_
    rcases operatorBefore_kind found with rfl | rfl
    · exact .add rfl nofun rfl fun _ => rfl
    · exact .add rfl nofun rfl fun _ => rfl
  · exact minds_operatorBehind mind

theorem precedence_forbidIn {k : TokenKind} (other : k ≠ .word .inWord) (c : Context) :
    precedence c.forbidIn k = precedence c k := by
  cases k with
  | word w => cases w with
    | inWord => exact absurd rfl other
    | _ => rfl
  | mark p => cases p <;> rfl
  | _ => rfl

theorem isIn_binary {left right : Child} {operator : TokenKind} (other : operator ≠ .word .inWord) :
    (Record.binary left (.token operator) right).isIn = false := by
  unfold Record.isIn
  split
  · next found => exact absurd (by injection found with _ found; injection found) other
  · rfl

theorem minds_operatorStep (mind : Minding sub) (least : Nat) (left : Child) :
    Minds (value left) (operatorStep sub start least left) fun answer => value answer.value := by
  have done : Minds (value left) (pure (ForInStep.done left)) fun answer => value answer.value :=
    .pure (.refl _)
  refine .neutral neutral_kind fun operator => ?_
  by_cases isIn : operator = .word .inWord
  · subst isIn
    -- an operand that binds at least as tightly leaves the `in` to others, with the ban and without
    by_cases loose : 7 ≤ least
    · have none_ (c : Context) : precedence c (.word .inWord) ≤ least := by
        change (if c.forbidsIn then 0 else 7) ≤ least
        split <;> omega
      refine .context (fun c => ?_) fun c => ?_
      · rw [if_pos (none_ c.forbidIn), if_pos (none_ c)]
      · rw [if_pos (none_ c)]
        exact done
    -- only here the ban matters: without it, the `in` is taken and the node for it is a bare one
    · refine .ban (fun c forbids => ?_) fun c allows => ?_
      · have none_ : precedence c (.word .inWord) ≤ least := by
          change (if c.forbidsIn then 0 else 7) ≤ least
          rw [if_pos forbids]
          exact Nat.zero_le least
        rw [if_pos none_]
        exact done
      · have binds : ¬precedence c (.word .inWord) ≤ least := by
          change ¬(if c.forbidsIn then 0 else 7) ≤ least
          rw [allows]
          exact loose
        rw [if_neg binds]
        have kept (right : Child) : Keeps (add .binaryExpression start
            (.binary left (.token (.word .inWord)) right) >>= fun node => pure (ForInStep.yield node)) :=
          (neutral_add _ _ _).keeps.bind fun node => .pure _
        constructor
        · refine Neutral.moving.advance.keeps.bind fun _ =>
            (mind (.binary _)).keeps.bind fun right => ?_
          exact either ((Neutral.moving.reportHere _).keeps.bind fun _ => kept right) (kept right)
        · refine .bind Neutral.moving.advance.keeps fun _ =>
            .bind (mind (.binary _)).keeps fun right => ?_
          split
          · exact .bind (Neutral.moving.reportHere _).keeps fun _ => fun s pools =>
              Exposes.addIn s pools
          · exact fun s pools => Exposes.addIn s pools
  · refine .context (fun c => by simp only [precedence_forbidIn isIn]) fun c => ?_
    refine decided (fun _ => done) fun _ => .neutral Neutral.moving.advance fun _ => ?_
    refine Minds.call (Q := value) (mind (.binary _)) fun right => ?_
    refine mergedWhen <| .neutral (either (Neutral.moving.reportHere _) (.pure _)) fun _ =>
      (.bind (Q := value) ?_ fun node => .pure (.refl _))
    exact .add rfl nofun (isIn_binary isIn) fun _ => rfl

theorem minds_binary (mind : Minding sub) (least : Nat) : Minds [] (binary sub least) value := by
  refine .neutral neutral_tokenStart fun start => (minds_unary mind).call fun left => ?_
  refine decided (fun missing => .pure (.of_isNone missing)) fun _ => ?_
  exact .repeating (minds_operatorStep mind least) left

theorem minds_conditional (mind : Minding sub) : Minds [] (conditional sub) value := by
  refine .neutral neutral_tokenStart fun start => (minds_binary mind 0).call fun condition => ?_
  refine decided (fun missing => .pure (.of_isNone missing)) fun _ => ?_
  refine .neutral (Neutral.moving.accept _) fun found => decided (fun _ => ?_) fun _ =>
    .pure (.refl _)
  refine .neutral (.within (fun _ => rfl) (minds_assignmentOrReport mind).keeps) fun whenTrue => ?_
  refine .neutral (Neutral.moving.expect _) fun _ => ?_
  exact (minds_assignmentOrReport mind).call fun whenFalse => .add rfl nofun rfl fun _ => rfl

/-! ### Arrow functions -/

theorem neutral_arrowParameters (mind : Minding sub) (isAsync : Bool) :
    Neutral (arrowParameters sub isAsync) := by
  refine (Neutral.moving.isAt _).bind fun group => either ?_ ?_
  · exact .within (fun _ => rfl) (keeps_parameterList mind)
  · refine neutral_tokenStart.bind fun start => sheltered_identifier.neutral.bind fun name => ?_
    exact (neutral_add _ _ _).bind fun node => .pure _

theorem kind_block (sub : PhraseParser) (s : ParserState) :
    (block sub s).2.tree.kind? (block sub s).1 = some .block := by
  have made (start : Nat) (r : Record) (s : ParserState) :
      (add .block start r s).2.tree.kind? (add .block start r s).1 = some .block := by
    obtain ⟨p, hn⟩ := s.tree.add_node_last .block 0 start s.previousEnd r
    exact Tree.kind?_of_node hn
  exact made _ _ _

/-- The body of an arrow function and the function itself. A body in braces is that of a function like
any other; an expression stays under the ban. -/
theorem minds_arrowBody (mind : Minding sub) (isAsync : Bool) (parameters : NodeList) :
    Minds [] (arrowBody sub isAsync >>= fun body => add .arrowFunction start
      (.function none isAsync false none parameters body true)) value := by
  unfold arrowBody
  rw [bind_assoc]
  refine .neutral (Neutral.moving.isAt _) fun braces => ?_
  cases braces with
  | true =>
    have body : Neutral (within (fun _ => .ofFunction isAsync false) (block sub)) :=
      .within (fun _ => rfl) (minds_block mind).keeps
    refine .of_neutral (body.bind fun body => neutral_add _ _ _) fun s pools p hp i child => ?_
    obtain rfl := List.mem_singleton.1 hp
    let inside : ParserState := { s with context := .ofFunction isAsync false }
    let made := block sub inside
    obtain rfl : made.2.tree.size = i := Option.some.inj child
    have kept := (minds_block mind).keeps inside pools
    have holds := Tree.add_bears kept.pools (k := .arrowFunction) (r :=
      .function none isAsync false none parameters made.1 true) rfl 0 start made.2.previousEnd
    refine .construct holds rfl fun j mem => ?_
    obtain ⟨there, noBlock⟩ := Tree.mem_reached_arrow.1 mem
    have found := kind_block sub inside
    rw [there] at found
    exact absurd (Tree.kind?_of_extends (Tree.add_extends ..) found) noBlock
  | false =>
    have body : Minds [] (within (.ofArrowBody isAsync) (assignmentOrReport sub)) value :=
      .within (fun _ => rfl) (minds_assignmentOrReport mind)
    refine body.call fun body => .addGathering rfl nofun ⟨?_, ?_, rfl⟩
    · rintro t ⟨p, hp, i, child, bare, noBlock⟩
      obtain rfl := List.mem_singleton.1 hp
      exact ⟨i, Tree.mem_reached_arrow.2 ⟨child, noBlock rfl⟩, bare⟩
    · intro t clear j mem
      exact clear _ (List.mem_singleton_self _) j (Tree.mem_reached_arrow.1 mem).1

theorem minds_arrowFunction (mind : Minding sub) (isAsync : Bool) :
    Minds [] (arrowFunction sub isAsync) value := by
  have rest (start : Nat) : Minds [] (do
      let parameters ← arrowParameters sub isAsync
      expectMark .arrow
      let body ← arrowBody sub isAsync
      add .arrowFunction start (.function none isAsync false none parameters body true)) value := by
    refine .neutral (neutral_arrowParameters mind isAsync) fun parameters => ?_
    exact .neutral (Neutral.moving.expect _) fun _ => minds_arrowBody mind isAsync parameters
  exact .neutral neutral_tokenStart fun start =>
    mergedWhen <| .neutral (either Neutral.moving.advance (.pure _)) fun _ => (rest start)

/-! ### Assignments -/

theorem neutral_atYieldEnd : Neutral atYieldEnd := by
  refine neutral_afterLineBreak.bind fun broken =>
    either (.pure true) (neutral_kind.bind fun k => ?_)
  split
  all_goals exact .pure _

theorem minds_yieldExpression (mind : Minding sub) : Minds [] (yieldExpression sub) value := by
  refine .neutral neutral_tokenStart fun start => .neutral Neutral.moving.advance fun _ => ?_
  refine .neutral neutral_afterLineBreak fun broken => ?_
  refine merged <| .neutral (either (.pure _) (Neutral.moving.accept _)) fun delegates => ?_
  beta_reduce
  refine merged <| .neutral (either (.pure _) neutral_atYieldEnd) fun alone => ?_
  beta_reduce
  have joined (operand : Child) : Minds (value operand) (add .yieldExpression start
      (.unary (.token (if delegates then .mark .asterisk else .word .yieldWord)) operand)) value :=
    .add rfl nofun rfl fun _ => rfl
  exact either (.without joined) ((minds_assignmentOrReport mind).call joined)

theorem minds_assignmentOrCondition (mind : Minding sub) :
    Minds [] (assignmentOrCondition sub) value := by
  refine .neutral neutral_tokenStart fun start => (minds_conditional mind).call fun target => ?_
  refine .neutral neutral_kind fun operator => decided (fun assigns => ?_) fun _ => .pure (.refl _)
  refine .neutral Neutral.moving.advance fun _ =>
    (minds_assignmentOrReport mind).call fun value => ?_
  refine .add rfl nofun (isIn_binary ?_) fun _ => rfl
  rintro rfl
  simp [TokenKind.isAssignment] at assigns

theorem minds_assignment (mind : Minding sub) : Minds [] (assignment sub) value := by
  refine .nested (.neutral (Neutral.moving.isAt _) fun yields => .context (fun _ => rfl) fun c => ?_)
  refine decided (fun _ => minds_yieldExpression mind) fun _ => ?_
  refine .neutral neutral_arrowAhead fun ahead => ?_
  cases ahead with
  | some isAsync => exact minds_arrowFunction mind isAsync
  | none => exact minds_assignmentOrCondition mind

end Parser

end PathGuard
