import PathGuard.Proofs.Grammar.Operation
import PathGuard.Proofs.Grammar.Single
/-!
# Climbing over the levels of operators

An operand is followed by operators that bind more tightly than asked for, each with a right operand
that is read in the same way. So an operation becomes the one tree that groups it by the levels of
its operators, whatever its length.
-/

namespace PathGuard

/-- Whether a node holds a formula whose text begins at `start`. -/
inductive Tree.Holds (t : Tree) : (start : Nat) → Formula → Nat → Prop where
  | name {start i : Nat} {x : Identifier}
      (is : t.Is i (.token .identifier) start (start + byteLength x.chars) (.identifier x.text)) :
      t.Holds start (.name x) i
  | binary {start i j k : Nat} {left right : Formula} {o : Operator}
      (holdsLeft : t.Holds start left i)
      (holdsRight : t.Holds (start + byteLength left.chars + o.word.size + 1) right j)
      (is : t.Is k .binaryExpression start (start + byteLength (Formula.binary left o right).chars)
        (.binary (some i) (.token o.kind) (some j))) :
      t.Holds start (.binary left o right) k

theorem Tree.Holds.of_extends {t t' : Tree} {start i : Nat} {f : Formula} (h : t.Holds start f i)
    (grows : t.Extends t') : t'.Holds start f i := by
  induction h with
  | name is => exact .name (is.of_extends grows)
  | binary _ _ is ihLeft ihRight => exact .binary ihLeft ihRight (is.of_extends grows)

theorem Formula.byteLength_binary (left right : Formula) (o : Operator) :
    byteLength (Formula.binary left o right).chars =
      byteLength left.chars + o.word.size + 1 + byteLength right.chars := by
  have blank : ' '.utf8Size = 1 := by decide
  rw [chars, byteLength_append, byteLength, byteLength_append, byteLength, blank, Word.size]
  change _ = _ + (byteLength [' '] + byteLength o.chars) + 1 + _
  rw [byteLength, byteLength, blank]
  omega

/-! ### Levels -/

def nextLevel : List (Operator × Identifier) → Nat
  | [] => 0
  | link :: _ => link.1.level

/-- Whether a formula is the longest grouped one at the beginning of an operation whose operators
bind more tightly than `least`, and `rest` is what follows it. -/
structure Climbs (least : Nat) (x : Identifier) (links : List (Operator × Identifier)) (f : Formula)
    (rest : List (Operator × Identifier)) : Prop where
  grouped : f.Grouped
  first : f.first = x
  split : f.rest ++ rest = links
  above : ∀ p ∈ f.top?, least < p.level
  stops : nextLevel rest ≤ least

theorem Operator.joins_of_limit {left right : Formula} {o : Operator}
    (before : ∀ p ∈ left.top?, o.level ≤ p.limit) (behind : ∀ p ∈ right.top?, o.limit < p.level) :
    o.Joins left right := by
  constructor
  · intro p top
    have level := before p top
    have tightest := p.level_le
    have power := p.isPower_iff
    have power' := o.isPower_iff
    unfold limit at level
    split at level
    · next isPower =>
      have := power.1 isPower
      exact ⟨by omega, fun isPower' => by have := power'.1 isPower'; omega⟩
    · next other =>
      refine ⟨level, fun isPower' => ?_⟩
      have := power'.1 isPower'
      exact absurd (power.2 (by omega)) other
  · intro p top
    have level := behind p top
    have tightest := p.level_le
    unfold limit at level
    split at level
    · next isPower =>
      have := o.isPower_iff.1 isPower
      exact .inr ⟨isPower, by omega⟩
    · exact .inl level

namespace Parser

variable {sub : PhraseParser} {offset depth : Nat} {c : Context} {s : ParserState}

/-- The words of an operation from an operator on, up to the end of the statement. -/
def operationTail (links : List (Operator × Identifier)) : List Word :=
  operationWords links ++ [markWord .semicolon false]

theorem length_le_operationTail (links : List (Operator × Identifier)) :
    links.length ≤ (operationTail links).length := by
  induction links with
  | nil => exact Nat.zero_le _
  | cons link links ih => exact Nat.succ_le_succ (Nat.le_trans ih (Nat.le_succ _))

theorem precedence_of_allowed (allowed : c.forbidsIn = false) (k : TokenKind) :
    precedence c k = precedence (.ofFunction false false) k := by
  unfold precedence
  rw [allowed]
  rfl

theorem precedence_operationTail (allowed : c.forbidsIn = false)
    (links : List (Operator × Identifier)) :
    precedence c (headKind (operationTail links)) = nextLevel links := by
  rw [precedence_of_allowed allowed]
  cases links <;> rfl

theorem endsOperand_operationTail (links : List (Operator × Identifier)) :
    endsOperand (headKind (operationTail links)) = true := by
  cases links with
  | nil => rfl
  | cons link links =>
    change endsOperand link.1.kind = true
    rw [endsOperand, link.1.between, Bool.or_true]

/-! ### One operator, and all of them -/

theorem operatorStep_done (allowed : c.forbidsIn = false) {links : List (Operator × Identifier)}
    (at_ : At offset (operationTail links) c depth s) {least : Nat} (stops : nextLevel links ≤ least)
    (start : Nat) (left : Child) : operatorStep sub start least left s = (.done left, s) := by
  rw [operatorStep, run_bind at_.kind, run_bind at_.context_eq, precedence_operationTail allowed,
    if_pos stops]
  rfl

theorem run_operatorStep (allowed : c.forbidsIn = false) {o : Operator} {y : Identifier}
    {links rest : List (Operator × Identifier)} {left right : Formula} {least start i : Nat}
    (at_ : At (start + byteLength left.chars) (operationTail ((o, y) :: links)) c depth s)
    (more : least < o.level) (holds : s.tree.Holds start left i)
    (operand : Reads (sub (.binary o.limit)) (start + byteLength left.chars + o.word.size)
      (y.word true :: operationTail links) c depth
      (start + byteLength left.chars + o.word.size + 1 + byteLength right.chars)
      (operationTail rest)
      fun j t => t.Holds (start + byteLength left.chars + o.word.size + 1) right j) :
    ∃ k s', operatorStep sub start least (some i) s = (.yield (some k), s') ∧
      At (start + byteLength (Formula.binary left o right).chars) (operationTail rest) c depth s' ∧
      s.tree.Extends s'.tree ∧ s'.tree.Holds start (.binary left o right) k := by
  have first : At (start + byteLength left.chars)
      (o.word :: (y.word true :: operationTail links)) c depth s := at_
  obtain ⟨s₁, run₁, at₁, same₁⟩ := first.advance
  obtain ⟨j, s₂, run₂, at₂, grows₂, holds₂⟩ := operand s₁ at₁
  obtain ⟨k, s₃, run₃, at₃, grows₃, is⟩ := at₂.add (k := .binaryExpression)
    (r := .binary (some i) (.token o.kind) (some j)) rfl 0 start
  rw [same₁] at grows₂
  have far : start + byteLength left.chars + o.word.size + 1 + byteLength right.chars =
      start + byteLength (Formula.binary left o right).chars := by
    rw [Formula.byteLength_binary]
    omega
  rw [far] at at₃ is
  refine ⟨k, s₃, ?_, at₃, grows₂.trans grows₃, .binary
    (holds.of_extends (grows₂.trans grows₃)) (holds₂.of_extends grows₃) is⟩
  have level : precedence c o.kind = o.level := precedence_of_allowed allowed o.kind
  have limit : (if o.kind = .mark .asteriskAsterisk then precedence c o.kind - 1
      else precedence c o.kind) = o.limit := by
    rw [level]
    rfl
  have kind : Parser.kind s = (o.kind, s) := first.kind
  rw [operatorStep, run_bind kind, run_bind first.context_eq]
  change (if precedence c o.kind ≤ least then _ else _ : Parser (ForInStep Child)) s = _
  rw [if_neg (by rw [level]; omega), run_bind run₁, limit, run_bind run₂]
  change ((addFlagged _ _ _ _ >>= fun _ => _) : Parser (ForInStep Child)) s₂ = _
  rw [run_bind run₃]
  rfl

/-- Whether right operands of operations that are shorter than `count` operators are read. -/
def ReadsOperands (sub : PhraseParser) (c : Context) (depth count : Nat) : Prop :=
  ∀ (links : List (Operator × Identifier)) (least offset : Nat) (y : Identifier),
    links.length < count → ∃ f rest, Climbs least y links f rest ∧
      Reads (sub (.binary least)) offset (y.word true :: operationTail links) c depth
        (offset + 1 + byteLength f.chars) (operationTail rest)
        fun j t => t.Holds (offset + 1) f j

/-- All operators that bind more tightly than `least`, behind a formula that was climbed over. The
induction is on the operators that are left; each step takes one, and those of its right operand. -/
theorem run_operators (allowed : c.forbidsIn = false) {count : Nat}
    (operands : ReadsOperands sub c depth count) (least start : Nat)
    {links : List (Operator × Identifier)} (few : links.length ≤ count) {f : Formula}
    (grouped : f.Grouped) (above : ∀ p ∈ f.top?, least < p.level)
    (before : ∀ p ∈ f.top?, nextLevel links ≤ p.limit) :
    ∃ g rest, Climbs least f.first (f.rest ++ links) g rest ∧ ∀ bound s i,
      links.length ≤ bound.length →
      At (start + byteLength f.chars) (operationTail links) c depth s → s.tree.Holds start f i →
      ∃ j s', repeatWithin (operatorStep sub start least) bound (some i) s = (some j, s') ∧
        At (start + byteLength g.chars) (operationTail rest) c depth s' ∧
        s.tree.Extends s'.tree ∧ s'.tree.Holds start g j := by
  induction h : links.length using Nat.strongRecOn generalizing links f with
  | ind n ih =>
    by_cases stops : nextLevel links ≤ least
    · refine ⟨f, links, ⟨grouped, rfl, rfl, above, stops⟩, fun bound s i _ at_ holds => ?_⟩
      exact ⟨i, s, run_repeatWithin_done (operatorStep_done allowed at_ stops start _) bound, at_,
        .refl _, holds⟩
    cases links with
    | nil => exact absurd (Nat.zero_le _) stops
    | cons link links =>
      obtain ⟨o, y⟩ := link
      have more : least < o.level := Nat.lt_of_not_le stops
      obtain ⟨right, rest, climbs, operand⟩ := operands links o.limit
        (start + byteLength f.chars + o.word.size) y few
      have shorter : rest.length ≤ links.length := by
        rw [← climbs.split, List.length_append]
        exact Nat.le_add_left _ _
      have joins : o.Joins f right := Operator.joins_of_limit before climbs.above
      obtain ⟨g, rest', climbs', run⟩ := ih rest.length
        (by rw [← h]; exact Nat.lt_succ_of_le shorter)
        (f := .binary f o right) (Nat.le_trans shorter (Nat.le_of_succ_le few))
        ⟨grouped, climbs.grouped, joins⟩
        (by rintro p hp; obtain rfl := Option.some.inj hp; exact more)
        (by rintro p hp; obtain rfl := Option.some.inj hp; exact climbs.stops) rfl
      have order : (Formula.binary f o right).rest ++ rest = f.rest ++ (o, y) :: links := by
        rw [Formula.rest, climbs.first, List.append_assoc, List.cons_append, climbs.split]
      rw [order] at climbs'
      refine ⟨g, rest', climbs', fun bound s i enough at_ holds => ?_⟩
      rw [← h] at enough
      cases bound with
      | nil => cases enough
      | cons b bound =>
        obtain ⟨k, s₁, run₁, at₁, grows₁, holds₁⟩ := run_operatorStep allowed at_ more holds operand
        obtain ⟨j, s₂, run₂, at₂, grows₂, holds₂⟩ := run bound s₁ k
          (Nat.le_trans shorter (Nat.le_of_succ_le_succ enough)) at₁ holds₁
        refine ⟨j, s₂, ?_, at₂, grows₁.trans grows₂, holds₂⟩
        rw [repeatWithin, run_bind run₁]
        exact run₂

theorem reads_operation (allowed : c.forbidsIn = false) (room : depth < maxDepth) {count : Nat}
    (operands : ReadsOperands sub c depth count) {links : List (Operator × Identifier)}
    (few : links.length ≤ count) (least offset : Nat) (x : Identifier) (blank : Bool) :
    ∃ f rest, Climbs least x links f rest ∧
      Reads (binary sub least) offset (x.word blank :: operationTail links) c depth
        (offset + byteLength (x.word blank).margin + byteLength f.chars) (operationTail rest)
        fun j t => t.Holds (offset + byteLength (x.word blank).margin) f j := by
  obtain ⟨f, rest, climbs, run⟩ := run_operators allowed operands least
    (offset + byteLength (x.word blank).margin) few (f := .name x) trivial nofun nofun
  refine ⟨f, rest, climbs, fun s at_ => ?_⟩
  obtain ⟨i, s₁, run₁, at₁, grows₁, is⟩ :=
    reads_unary room rfl (endsOperand_operationTail links) (reads_name rfl
      (endsOperand_operationTail links)) s at_
  have size : offset + (x.word blank).size =
      offset + byteLength (x.word blank).margin + byteLength (Formula.name x).chars :=
    (Nat.add_assoc ..).symm
  rw [size] at at₁ is
  obtain ⟨left, textLeft, enough⟩ := at₁.textLeft
  have short : links.length ≤ left.length :=
    Nat.le_trans (length_le_operationTail links) enough
  obtain ⟨j, s₂, run₂, at₂, grows₂, holds⟩ := run left s₁ i short at₁ (.name is)
  refine ⟨j, s₂, ?_, at₂, grows₁.trans grows₂, holds⟩
  rw [binary, run_bind at_.tokenStart, run_bind run₁]
  change ((Parser.textLeft >>= fun _ => _) : Parser Child) s₁ = _
  rw [run_bind textLeft]
  exact run₂

theorem readsOperands_phrase (allowed : c.forbidsIn = false) (room : depth < maxDepth) (fuel : Nat) :
    ReadsOperands (phrase fuel) c depth fuel := by
  induction fuel with
  | zero => exact fun _ _ _ _ few => absurd few (Nat.not_lt_zero _)
  | succ fuel ih =>
    intro links least offset y few
    exact reads_operation allowed room ih (Nat.le_of_lt_succ few) least offset y true

end Parser

/-- Identifiers with operators between them are parsed without problems, as one statement that holds
them grouped by the levels of the operators; there is only one way to group them so. -/
theorem parseFile_grouped (fileName : String) (x : Identifier)
    (links : List (Operator × Identifier)) :
    let text := operationChars x links ++ [';']
    let file := parseFile fileName (String.ofList text)
    file.problems = [] ∧ ∃ root row last i e f,
      file.root = some root ∧ row.nodes = [some i] ∧
      file.tree.Is root .sourceFile 0 (byteLength text) (.sourceFile row (some last) fileName) ∧
      file.tree.Is i .expressionStatement 0 (byteLength text) (.expressionStatement (some e)) ∧
      file.tree.Holds 0 f e ∧ f.first = x ∧ f.rest = links ∧ f.Grouped ∧
      ∀ g : Formula, g.first = x → g.rest = links → g.Grouped → g = f := by
  intro text file
  let words := x.word false :: Parser.operationTail links
  have legible : Legible words := legible_operation x false links
  have written : spelled words = text := by
    change spelled ((x.word false :: operationWords links) ++ [markWord .semicolon false]) = text
    rw [spelled_append, spelled_operation]
    rfl
  let fuel := (spelled words).length + maxDepth
  have few : links.length ≤ fuel :=
    calc links.length
      _ ≤ (Parser.operationTail links).length := Parser.length_le_operationTail links
      _ ≤ words.length := Nat.le_succ _
      _ ≤ (spelled words).length := length_le_spelled legible
      _ ≤ fuel := Nat.le_add_right _ _
  obtain ⟨f, rest, climbs, read⟩ := Parser.reads_operation rfl (by decide)
    (Parser.readsOperands_phrase (c := .ofFunction true false) rfl (by decide : 2 < maxDepth) fuel)
    few 0 0 x false
  -- nothing is left, since every operator binds more tightly than 0
  obtain rfl : rest = [] := by
    cases rest with
    | nil => rfl
    | cons link rest => exact absurd climbs.stops (Nat.not_le_of_lt link.1.level_pos)
  have order : f.rest = links := by rw [← climbs.split, List.append_nil]
  have other (k : TokenKind) (noOperator : Parser.isOperator k = false)
      (noEnd : k ≠ .mark .semicolon) : Parser.headKind (Parser.operationTail links) ≠ k := by
    cases links with
    | nil => exact noEnd.symm
    | cons link links =>
      rintro rfl
      exact Bool.false_ne_true (noOperator.symm.trans link.1.between)
  have value : Parser.Reads (Parser.phrase (fuel + 1) .assignment) 0 words (.ofFunction true false) 1
      (0 + byteLength (x.word false).margin + byteLength f.chars) [markWord .semicolon false]
      fun j t => t.Holds (0 + byteLength (x.word false).margin) f j :=
    Parser.reads_assignment_binary (by decide) rfl (other _ rfl nofun) rfl read
  have statement := Parser.reads_statement (by decide : 0 < maxDepth) rfl (other _ rfl nofun)
    (fun _ _ _ holds grows => holds.of_extends grows) value
  obtain ⟨fine, root, i, last, row, rooted, nodes, is, e, holds, isStatement⟩ :=
    Parser.parseFile_statement fileName legible nofun
      (fun _ _ _ ⟨e, holds, is⟩ grows => ⟨e, holds.of_extends grows, is.of_extends grows⟩) statement
  rw [written] at fine rooted is holds isStatement
  have first : 0 + byteLength (x.word false).margin = 0 := rfl
  have whole : 0 + byteLength f.chars + (markWord .semicolon false).size = byteLength text := by
    rw [f.chars_eq, climbs.first, order, byteLength_append, Nat.zero_add]
    rfl
  rw [first] at holds isStatement
  rw [whole] at isStatement
  refine ⟨fine, root, row, last, i, e, f, rooted, nodes, is, isStatement, holds, climbs.first, order,
    climbs.grouped, fun g sameFirst sameRest grouped => ?_⟩
  exact grouped.unique climbs.grouped (sameFirst.trans climbs.first.symm) (sameRest.trans order.symm)

end PathGuard
