import PathGuard.Proofs.Grammar.Operand
import PathGuard.Proofs.Token.Identifier
/-!
# Operations

Identifiers with operators between them, as they are written and as they are grouped. The levels of
the operators leave one way to group them: in it, what stands under an operator binds more tightly
than the operator does, or stands on the side to which the operator groups.
-/

namespace PathGuard

structure Operator where
  kind : TokenKind
  between : Parser.isOperator kind = true

namespace Operator

def level (o : Operator) : Nat := Parser.precedence (.ofFunction false false) o.kind

def IsPower (o : Operator) : Prop := o.kind = .mark .asteriskAsterisk

instance (o : Operator) : Decidable o.IsPower := inferInstanceAs (Decidable (_ = _))

/-- The level that an operator has to exceed to stand at the top of the right operand. -/
def limit (o : Operator) : Nat := if o.IsPower then o.level - 1 else o.level

def chars (o : Operator) : List Char :=
  match o.kind with
  | .mark p => p.chars
  | .word k => k.text.toList
  | _ => []

def word (o : Operator) : Word :=
  ⟨o.kind, (o.kind.wordText?).getD "", true, o.chars⟩

theorem level_pos (o : Operator) : 0 < o.level :=
  Nat.pos_of_ne_zero (bne_iff_ne.1 o.between)

theorem level_le (o : Operator) : o.level ≤ 11 := by
  unfold level Parser.precedence
  split <;> decide

theorem isPower_iff (o : Operator) : o.IsPower ↔ o.level = 11 := by
  constructor
  · intro power
    rw [level, power]
    rfl
  · intro top
    unfold level Parser.precedence at top
    split at top <;> first | assumption | cases top

end Operator

/-! ### Formulas -/

/-- Identifiers joined by operators, two operands at a time. -/
inductive Formula where
  | name (x : Identifier)
  | binary (left : Formula) (o : Operator) (right : Formula)

namespace Formula

def top? : Formula → Option Operator
  | name _ => none
  | binary _ o _ => some o

def first : Formula → Identifier
  | name x => x
  | binary left _ _ => left.first

/-- The operators in the order of reading, each with the identifier behind it. -/
def rest : Formula → List (Operator × Identifier)
  | name _ => []
  | binary left o right => left.rest ++ (o, right.first) :: right.rest

def chars : Formula → List Char
  | name x => x.chars
  | binary left o right => left.chars ++ ' ' :: (o.chars ++ ' ' :: right.chars)

end Formula

/-- Whether an operator may stand between two formulas: what joins the left one binds at least as
tightly, and what joins the right one more tightly. For a power it is the other way round. -/
structure Operator.Joins (left : Formula) (o : Operator) (right : Formula) : Prop where
  left : ∀ p ∈ left.top?, o.level ≤ p.level ∧ (o.IsPower → o.level < p.level)
  right : ∀ p ∈ right.top?, o.level < p.level ∨ o.IsPower ∧ p.level = o.level

namespace Formula

def Grouped : Formula → Prop
  | name _ => True
  | binary left o right => left.Grouped ∧ right.Grouped ∧ o.Joins left right

theorem exists_top {f : Formula} {q : Operator × Identifier} (mem : q ∈ f.rest) :
    ∃ p, f.top? = some p := by
  cases f with
  | name x => cases mem
  | binary left o right => exact ⟨o, rfl⟩

theorem Grouped.level_le {f : Formula} (grouped : f.Grouped) {p : Operator} (top : f.top? = some p)
    {q : Operator × Identifier} (mem : q ∈ f.rest) : p.level ≤ q.1.level := by
  induction f generalizing p with
  | name x => cases top
  | binary left o right ihLeft ihRight =>
    obtain rfl : o = p := Option.some.inj top
    obtain ⟨groupedLeft, groupedRight, joins⟩ := grouped
    rw [rest, List.mem_append, List.mem_cons] at mem
    rcases mem with before | rfl | behind
    · obtain ⟨p, top⟩ := exists_top before
      exact Nat.le_trans (joins.left p top).1 (ihLeft groupedLeft top before)
    · exact Nat.le_refl _
    · obtain ⟨p, top⟩ := exists_top behind
      have below : o.level ≤ p.level := by
        rcases joins.right p top with above | ⟨-, same⟩ <;> omega
      exact Nat.le_trans below (ihRight groupedRight top behind)

end Formula

namespace Operator.Joins

variable {left right : Formula} {o : Operator} {q : Operator × Identifier}

theorem level_left (joins : o.Joins left right) (grouped : left.Grouped) (mem : q ∈ left.rest) :
    o.level ≤ q.1.level ∧ (o.IsPower → o.level < q.1.level) := by
  obtain ⟨p, top⟩ := Formula.exists_top mem
  have below := grouped.level_le top mem
  obtain ⟨atMost, power⟩ := joins.left p top
  exact ⟨Nat.le_trans atMost below, fun isPower => Nat.lt_of_lt_of_le (power isPower) below⟩

theorem level_right (joins : o.Joins left right) (grouped : right.Grouped) (mem : q ∈ right.rest) :
    o.level < q.1.level ∨ o.IsPower ∧ q.1.IsPower := by
  obtain ⟨p, top⟩ := Formula.exists_top mem
  have below := grouped.level_le top mem
  rcases joins.right p top with above | ⟨power, same⟩
  · exact .inl (Nat.lt_of_lt_of_le above below)
  · have tightest := q.1.level_le
    have level := o.isPower_iff.1 power
    exact .inr ⟨power, q.1.isPower_iff.2 (by omega)⟩

theorem not_both {left' right' : Formula} {o' : Operator} (joins : o.Joins left right)
    (joins' : o'.Joins left' right') (grouped : right.Grouped) (grouped' : left'.Grouped)
    {x x' : Identifier} (second : (o', x') ∈ right.rest) (first : (o, x) ∈ left'.rest) : False := by
  obtain ⟨atMost, power⟩ := joins'.level_left grouped' first
  rcases joins.level_right grouped second with above | ⟨isPower, isPower'⟩
  · exact Nat.not_le_of_lt above atMost
  · have less := power isPower'
    have level := o.isPower_iff.1 isPower
    have level' := o'.isPower_iff.1 isPower'
    dsimp only at less
    omega

end Operator.Joins

/-- What is read tells the formula, once it is grouped by the levels of its operators. -/
theorem Formula.Grouped.unique {f g : Formula} (grouped : f.Grouped) (grouped' : g.Grouped)
    (first : f.first = g.first) (rest : f.rest = g.rest) : f = g := by
  induction f generalizing g with
  | name x =>
    cases g with
    | name y => exact congrArg name first
    | binary left' o' right' => exact absurd rest.symm (List.append_ne_nil_of_right_ne_nil _ nofun)
  | binary left o right ihLeft ihRight =>
    cases g with
    | name y => exact absurd rest (List.append_ne_nil_of_right_ne_nil _ nofun)
    | binary left' o' right' =>
      obtain ⟨groupedLeft, groupedRight, joins⟩ := grouped
      obtain ⟨groupedLeft', groupedRight', joins'⟩ := grouped'
      rw [Formula.rest, Formula.rest] at rest
      -- either both tops stand in one place, or one of them lies in an operand of the other
      rcases List.append_eq_append_iff.1 rest with ⟨between, before, behind⟩ | ⟨between, before, behind⟩
      · cases between with
        | nil =>
          obtain ⟨head, tail⟩ := List.cons.inj behind
          obtain ⟨rfl, same⟩ := Prod.mk.inj head
          rw [List.append_nil] at before
          rw [ihLeft groupedLeft groupedLeft' first before.symm,
            ihRight groupedRight groupedRight' same tail]
        | cons q between =>
          obtain ⟨rfl, tail⟩ := List.cons.inj behind
          have second : (o', right'.first) ∈ right.rest := by
            rw [tail]
            exact List.mem_append_right _ List.mem_cons_self
          have earlier : (o, right.first) ∈ left'.rest := by
            rw [before]
            exact List.mem_append_right _ List.mem_cons_self
          exact (joins.not_both joins' groupedRight groupedLeft' second earlier).elim
      · cases between with
        | nil =>
          obtain ⟨head, tail⟩ := List.cons.inj behind
          obtain ⟨rfl, same⟩ := Prod.mk.inj head
          rw [List.append_nil] at before
          rw [ihLeft groupedLeft groupedLeft' first before,
            ihRight groupedRight groupedRight' same.symm tail.symm]
        | cons q between =>
          obtain ⟨rfl, tail⟩ := List.cons.inj behind
          have second : (o, right.first) ∈ right'.rest := by
            rw [tail]
            exact List.mem_append_right _ List.mem_cons_self
          have earlier : (o', right'.first) ∈ left.rest := by
            rw [before]
            exact List.mem_append_right _ List.mem_cons_self
          exact (joins'.not_both joins groupedRight' groupedLeft second earlier).elim

/-! ### Operations as text -/

def operationWords (links : List (Operator × Identifier)) : List Word :=
  links.flatMap fun link => [link.1.word, link.2.word true]

def operationChars (x : Identifier) (links : List (Operator × Identifier)) : List Char :=
  x.chars ++ links.flatMap fun link => ' ' :: (link.1.chars ++ ' ' :: link.2.chars)

theorem Formula.chars_eq (f : Formula) : f.chars = operationChars f.first f.rest := by
  induction f with
  | name x => simp [chars, operationChars, first, rest]
  | binary left o right ihLeft ihRight =>
    rw [chars, ihLeft, ihRight]
    simp [operationChars, first, rest]

theorem spelled_operation (x : Identifier) (links : List (Operator × Identifier)) :
    spelled (x.word false :: operationWords links) = operationChars x links := by
  have behind : spelled (operationWords links) =
      links.flatMap fun link => ' ' :: (link.1.chars ++ ' ' :: link.2.chars) := by
    induction links with
    | nil => rfl
    | cons link links ih =>
      change spelled ([link.1.word, link.2.word true] ++ operationWords links) = _
      rw [spelled_append, ih]
      simp [spelled, Operator.word, Identifier.word, Word.margin]
  rw [spelled_cons, behind]
  rfl

theorem legible_slash (blank : Bool) (rest : List Char) :
    (markWord .slash blank).Legible (' ' :: rest) := by
  refine ⟨rfl, nofun, ⟨'/', [], rfl, by decide⟩, fun offset => ⟨.none, TokenFlags.isQuiet_none, ?_⟩⟩
  have noComment : ['#', '!'].isPrefixOf ('/' :: ' ' :: rest) = false := by
    simp [List.isPrefixOf]
  change readPiece ⟨offset, '/' :: ' ' :: rest⟩ = _
  unfold readPiece
  simp only [noComment, Bool.and_false, Bool.false_eq_true, if_false]
  rfl

theorem Operator.legible (o : Operator) (rest : List Char) : o.word.Legible (' ' :: rest) := by
  have noPart : EndsName (' ' :: rest) := by
    rintro c hc
    obtain rfl : ' ' = c := Option.some.inj hc
    decide +kernel
  obtain ⟨kind, between⟩ := o
  cases kind with
  | mark p =>
    cases p with
    | slash => exact legible_slash true rest
    | _ =>
      first
      | exact absurd between (by decide)
      | exact legible_mark _ true ⟨_, _, rfl, by decide +kernel, .inl (by decide)⟩ rfl
  | word k =>
    cases k with
    | inWord => exact legible_name ⟨'i', ['n'], by decide, List.all_eq_true.1 (by decide)⟩ true noPart
    | instanceofWord =>
      exact legible_name ⟨'i', "nstanceof".toList, by decide,
        List.all_eq_true.1 (by decide)⟩ true noPart
    | _ => exact absurd between (by decide)
  | _ => exact absurd between Bool.false_ne_true

theorem legible_operation (x : Identifier) (blank : Bool) (links : List (Operator × Identifier)) :
    Legible (x.word blank :: (operationWords links ++ [markWord .semicolon false])) := by
  have semicolon : Legible [markWord .semicolon false] := ⟨legible_alone rfl false _, trivial⟩
  induction links generalizing x blank with
  | nil => exact ⟨x.legible blank (by decide +kernel) _, semicolon⟩
  | cons link links ih =>
    exact ⟨x.legible blank (by decide +kernel) _, link.1.legible _, ih link.2 true⟩

end PathGuard
