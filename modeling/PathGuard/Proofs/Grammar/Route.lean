import PathGuard.Access.Path
import PathGuard.Proofs.Grammar.Single
import PathGuard.Proofs.Skip.Route
/-!
# Reading routes

The words of a route become a name or a meta property with accesses and parentheses around it, one
node for each of its links and parentheses.
-/

namespace PathGuard

namespace Tree

/-- Whether a node is a route whose start begins at `place` and is what a path begins at. -/
inductive Routed (t : Tree) (place : Nat) : Route → PathBase → Nat → Prop where
  | name {n : AsciiName} {free : n.IsFree} {i : Nat}
      (is : t.Is i (.token .identifier) place (place + byteLength n.chars) (.identifier n.text)) :
      Routed t place (.name n free) (.identifier i) i
  | importMeta {n : AsciiName} {i key start stop : Nat} (named : t.IsName key n.text)
      (is : t.Is i .metaProperty start stop
        (.metaProperty (.token (.word .importWord)) (some key))) :
      Routed t place (.importMeta n) .metaProperty i
  | newMeta {n : AsciiName} {i key start stop : Nat} (named : t.IsName key n.text)
      (is : t.Is i .metaProperty start stop (.metaProperty (.token (.word .newWord)) (some key))) :
      Routed t place (.newMeta n) .metaProperty i
  | link {r : Route} {l : Link} {base : PathBase} {e i start stop : Nat}
      (inner : Routed t place r base e) (is : t.IsLink i e l start stop) :
      Routed t place (.link r l) base i
  | parenthesized {r : Route} {base : PathBase} {e i start stop : Nat}
      (inner : Routed t place r base e)
      (is : t.Is i .parenthesized start stop (.parenthesized (some e))) :
      Routed t place (.parenthesized r) base i

theorem Routed.of_extends {t t' : Tree} {place i : Nat} {r : Route} {base : PathBase}
    (h : t.Routed place r base i) (grows : t.Extends t') : t'.Routed place r base i := by
  induction h with
  | name is => exact .name (is.of_extends grows)
  | importMeta named is => exact .importMeta (Tree.IsName.of_extends named grows) (is.of_extends grows)
  | newMeta named is => exact .newMeta (Tree.IsName.of_extends named grows) (is.of_extends grows)
  | link inner is ih =>
    obtain ⟨key, isKey, is⟩ := is
    exact .link ih ⟨key, isKey.of_extends grows, is.of_extends grows⟩
  | parenthesized inner is ih => exact .parenthesized ih (is.of_extends grows)

end Tree

/-! ### The words of a route -/

namespace Route

def first : Route → Word
  | name n _ => n.word false
  | importMeta _ => AsciiName.importWord.word false
  | newMeta _ => AsciiName.newWord.word false
  | link r _ => r.first
  | parenthesized _ => markWord .openParen false

theorem words_eq (r : Route) : r.words = r.first :: r.words.tail := by
  induction r with
  | link r l ih =>
    rw [words, ih]
    rfl
  | _ => rfl

theorem first_kind (r : Route) : r.first.kind = .identifier ∨ r.first.kind = .mark .openParen ∨
    r.first.kind = .word .importWord ∨ r.first.kind = .word .newWord := by
  induction r with
  | name n free => exact .inl free.kind_eq
  | importMeta n => exact .inr (.inr (.inl AsciiName.importWord_kind))
  | newMeta n => exact .inr (.inr (.inr AsciiName.newWord_kind))
  | link r l ih => exact ih
  | parenthesized r => exact .inr (.inl rfl)

theorem first_margin (r : Route) : r.first.margin = [] := by
  induction r with
  | link r l ih => exact ih
  | _ => rfl

def outerWords : Route → List Word
  | link r l => r.outerWords ++ l.words
  | _ => []

theorem outerLinks_le (r : Route) : r.outerLinks ≤ r.outerWords.length := by
  induction r with
  | link r l ih =>
    have some_ : 1 ≤ l.words.length := by
      cases l with
      | name isOptional n => cases isOptional <;> exact Nat.le_add_left 1 _
      | key isOptional p => cases isOptional <;> exact Nat.le_add_left 1 _
    rw [outerLinks, outerWords, List.length_append]
    omega
  | _ => exact Nat.zero_le _

end Route

namespace Parser

variable {sub : PhraseParser} {offset depth : Nat} {ws : List Word} {c : Context}
  {s : ParserState}

/-! ### Starts -/

def operandHead (sub : PhraseParser) : Parser Child := do
  if ← atWord .newWord then newExpression sub else primary sub

theorem run_leftHandSide_head {w : Word} {e : Nat} {s₁ : ParserState}
    (at_ : At offset (w :: ws) c depth s) (head : operandHead sub s = (some e, s₁)) :
    leftHandSide sub s =
      (do
        let (linked, _) ← repeating (linkStep sub (offset + byteLength w.margin) true)
          (some e, false)
        return linked : Parser Child) s₁ := by
  rw [operandHead, run_bind (at_.atWord .newWord)] at head
  rw [leftHandSide, run_bind at_.tokenStart, run_bind (at_.atWord .newWord)]
  cases here : headKind (w :: ws) == .word .newWord with
  | true =>
    rw [here, if_pos rfl] at head
    rw [if_pos rfl, run_bind head]
    rfl
  | false =>
    rw [here, if_neg Bool.false_ne_true] at head
    rw [if_neg Bool.false_ne_true, run_bind head]
    rfl

theorem run_metaName (n : AsciiName)
    (at_ : At offset (markWord .dot false :: n.word false :: ws) c depth s) :
    ∃ k s₁ s₂, acceptMark .dot s = (true, s₁) ∧ identifierName s₁ = (some k, s₂) ∧
      At (offset + (markWord .dot false).size + (n.word false).size) ws c depth s₂ ∧
      s.tree.Extends s₂.tree ∧ s₂.tree.IsName k n.text := by
  obtain ⟨s₁, run₁, at₁, same₁⟩ := at_.acceptMark
  obtain ⟨k, s₂, run₂, at₂, grows₂, name⟩ := reads_identifierName n false s₁ at₁
  exact ⟨k, s₁, s₂, run₁, run₂, at₂, same₁ ▸ grows₂, name⟩

theorem reads_importMeta (n : AsciiName) (place : Nat) :
    Reads importExpression offset ((Route.importMeta n).words ++ ws) c depth
      (offset + byteLength (Route.importMeta n).chars) ws
      fun i t => ∃ base, t.Routed place (.importMeta n) base i := by
  intro s at_
  obtain ⟨s₁, run₁, at₁, same₁⟩ := At.advance at_
  obtain ⟨k, s₂, s₃, run₂, run₃, at₃, grows₃, name⟩ := run_metaName n at₁
  obtain ⟨i, s₄, run₄, at₄, grows₄, is⟩ := at₃.add (k := .metaProperty)
    (r := .metaProperty (.token (.word .importWord)) (some k)) rfl 0 offset
  rw [same₁] at grows₃
  have behind : offset + byteLength (Route.importMeta n).chars =
      offset + (AsciiName.importWord.word false).size + (markWord .dot false).size +
        (n.word false).size := by
    rw [Route.byteLength_chars]
    simp only [Route.words, List.map_cons, List.map_nil, List.sum_cons, List.sum_nil]
    omega
  rw [behind]
  refine ⟨i, s₄, ?_, at₄, grows₃.trans grows₄, _, .importMeta (Tree.IsName.of_extends name grows₄) is⟩
  rw [importExpression, run_bind (At.tokenStart at_), run_bind (At.tokenEnd at_), run_bind run₁,
    run_bind run₂]
  change ((identifierName >>= fun _ => _) : Parser Child) s₂ = _
  rw [run_bind run₃]
  exact run₄

theorem reads_newMeta (room : depth < maxDepth) (n : AsciiName) (place : Nat) :
    Reads (newExpression sub) offset ((Route.newMeta n).words ++ ws) c depth
      (offset + byteLength (Route.newMeta n).chars) ws
      fun i t => ∃ base, t.Routed place (.newMeta n) base i := by
  refine Reads.nested room fun s at_ => ?_
  obtain ⟨s₁, run₁, at₁, same₁⟩ := At.advance at_
  obtain ⟨k, s₂, s₃, run₂, run₃, at₃, grows₃, name⟩ := run_metaName n at₁
  obtain ⟨i, s₄, run₄, at₄, grows₄, is⟩ := at₃.add (k := .metaProperty)
    (r := .metaProperty (.token (.word .newWord)) (some k)) rfl 0 offset
  rw [same₁] at grows₃
  have behind : offset + byteLength (Route.newMeta n).chars =
      offset + (AsciiName.newWord.word false).size + (markWord .dot false).size +
        (n.word false).size := by
    rw [Route.byteLength_chars]
    simp only [Route.words, List.map_cons, List.map_nil, List.sum_cons, List.sum_nil]
    omega
  rw [behind]
  refine ⟨i, s₄, ?_, at₄, grows₃.trans grows₄, _, .newMeta (Tree.IsName.of_extends name grows₄) is⟩
  rw [run_bind (At.tokenStart at_), run_bind run₁, run_bind run₂]
  change ((identifierName >>= fun _ => _) : Parser Child) s₂ = _
  rw [run_bind run₃]
  exact run₄

theorem reads_parenthesized {r : Route} {place : Nat}
    (h : Reads (sub .assignment) (offset + 1) (r.words ++ markWord .closeParen false :: ws)
      c.allowIn depth (offset + 1 + byteLength r.chars) (markWord .closeParen false :: ws)
      fun i t => ∃ base, t.Routed place r base i) :
    Reads (parenthesized sub) offset ((Route.parenthesized r).words ++ ws) c depth
      (offset + byteLength (Route.parenthesized r).chars) ws
      fun i t => ∃ base, t.Routed place (.parenthesized r) base i := by
  intro s at_
  rw [Route.words, List.cons_append, List.append_assoc, List.singleton_append] at at_
  obtain ⟨s₁, run₁, at₁, same₁⟩ := at_.advance
  rw [r.words_eq, List.cons_append] at h at₁
  obtain ⟨e, s₂, run₂, at₂, grows₂, base, inner⟩ := (reads_expression rfl h).within s₁ at₁
  obtain ⟨s₃, run₃, at₃, same₃⟩ := at₂.expectMark
  obtain ⟨i, s₄, run₄, at₄, grows₄, is⟩ := at₃.add (k := .parenthesized)
    (r := .parenthesized (some e)) rfl 0 offset
  rw [same₁] at grows₂
  rw [same₃] at grows₄
  have behind : offset + byteLength (Route.parenthesized r).chars =
      offset + 1 + byteLength r.chars + (markWord .closeParen false).size := by
    have one : '('.utf8Size = 1 := by decide
    have last : byteLength [')'] = 1 := by decide
    have size : (markWord .closeParen false).size = 1 := by decide
    rw [Route.chars, byteLength, byteLength_append, one, last, size]
    omega
  rw [behind]
  refine ⟨i, s₄, ?_, at₄, grows₂.trans grows₄, base, .parenthesized (inner.of_extends grows₄) is⟩
  rw [parenthesized, run_bind at_.tokenStart, run_bind run₁, run_bind run₂, run_bind run₃]
  exact run₄

/-! ### The links -/

/-- Whether a parser at the first word of a route reads the head of an operand, and the loop over its
links then comes to the node of the route and the words behind it. -/
structure Follows (sub : PhraseParser) (r : Route) (offset : Nat) (ws : List Word) (c : Context)
    (depth : Nat) (s : ParserState) (i : Nat) (s' : ParserState) : Prop where
  head : ∃ e s₁ first chained, operandHead sub s = (some e, s₁) ∧
    At first (r.outerWords ++ ws) c depth s₁ ∧ ∀ bound, r.outerLinks ≤ bound.length →
      ∃ rest, rest.length + r.outerLinks = bound.length ∧
        repeatWithin (linkStep sub offset true) bound (some e, false) s₁ =
          repeatWithin (linkStep sub offset true) rest (some i, chained) s'
  behind : At (offset + byteLength r.chars) ws c depth s'
  grows : s.tree.Extends s'.tree
  routed : ∃ base, s'.tree.Routed (offset + r.parens) r base i

theorem follows_head {r : Route} (noLinks : r.outerLinks = 0) (noWords : r.outerWords = [])
    (h : Reads (operandHead sub) offset (r.words ++ ws) c depth (offset + byteLength r.chars) ws
      fun i t => ∃ base, t.Routed (offset + r.parens) r base i)
    (at_ : At offset (r.words ++ ws) c depth s) :
    ∃ i s', Follows sub r offset ws c depth s i s' := by
  obtain ⟨i, s', run, after, grows, routed⟩ := h s at_
  refine ⟨i, s', ⟨i, s', offset + byteLength r.chars, false, run, ?_,
    fun bound _ => ⟨bound, ?_, rfl⟩⟩, after, grows, routed⟩
  · rw [noWords]
    exact after
  · rw [noLinks, Nat.add_zero]

theorem Follows.link {r : Route} {l : Link} {i : Nat} {s' : ParserState}
    (keys : ReadsKeys sub c depth) (h : Follows sub r offset (l.words ++ ws) c depth s i s') :
    ∃ i' s'', Follows sub (.link r l) offset ws c depth s i' s'' := by
  obtain ⟨⟨e, s₁, first, chained, run, at₁, loop⟩, behind, grows, base, routed⟩ := h
  obtain ⟨i', s'', step, after, grown, link⟩ := run_linkStep keys l behind offset i chained
  have size : offset + byteLength r.chars + byteLength l.chars =
      offset + byteLength (Route.link r l).chars := by
    rw [Route.chars, byteLength_append, Nat.add_assoc]
  rw [size] at after link
  refine ⟨i', s'', ⟨e, s₁, first, chained || l.isOptional, run, ?_, fun bound enough => ?_⟩, after,
    grows.trans grown, base, .link (routed.of_extends grown) link⟩
  · rw [Route.outerWords, List.append_assoc]
    exact at₁
  · rw [Route.outerLinks] at enough
    obtain ⟨rest, left, same⟩ := loop bound (by omega)
    cases rest with
    | nil =>
      rw [List.length_nil] at left
      omega
    | cons b rest =>
      refine ⟨rest, ?_, ?_⟩
      · rw [List.length_cons] at left
        rw [Route.outerLinks]
        omega
      · rw [same, repeatWithin, run_bind step]

theorem Follows.leftHandSide {r : Route} {i : Nat} {s' : ParserState}
    (h : Follows sub r offset ws c depth s i s') (at_ : At offset (r.words ++ ws) c depth s)
    (stop : isStop (headKind ws) = true) : leftHandSide sub s = (some i, s') := by
  obtain ⟨⟨e, s₁, first, chained, run, at₁, loop⟩, behind, -, -⟩ := h
  obtain ⟨left, textLeft, enough⟩ := at₁.textLeft
  rw [List.length_append] at enough
  have few := r.outerLinks_le
  obtain ⟨rest, -, same⟩ := loop left (by omega)
  rw [r.words_eq, List.cons_append] at at_
  have begins : offset + byteLength r.first.margin = offset := by
    rw [r.first_margin]
    rfl
  have done_ : linkStep sub offset true (some i, chained) s' = (.done (some i, chained), s') :=
    linkStep_done behind (endsOperand_of_stop stop) offset _
  have all : repeating (linkStep sub offset true) (some e, false) s₁ = ((some i, chained), s') := by
    rw [repeating, run_bind textLeft, same]
    exact run_repeatWithin_done done_ rest
  rw [run_leftHandSide_head at_ run, begins, run_bind all]
  rfl

/-! ### Routes -/

theorem operandHead_primary {w : Word} (other : w.kind ≠ .word .newWord)
    (at_ : At offset (w :: ws) c depth s) : operandHead sub s = primary sub s := by
  have notNew : (headKind (w :: ws) == .word .newWord) = false := beq_false_of_ne other
  rw [operandHead, run_bind (at_.atWord .newWord), notNew, if_neg Bool.false_ne_true]

/-- A route that is followed as an operand is the whole expression before a stop. -/
theorem reads_assignment_route {r : Route} (room : depth + 1 < maxDepth)
    (stop : isStop (headKind ws) = true)
    (h : ∀ s, At offset (r.words ++ ws) c (depth + 2) s →
      ∃ i s', Follows sub r offset ws c (depth + 2) s i s') :
    Reads (assignment sub) offset (r.words ++ ws) c depth (offset + byteLength r.chars) ws
      fun i t => ∃ base, t.Routed (offset + r.parens) r base i := by
  have operand : Reads (leftHandSide sub) offset (r.words ++ ws) c (depth + 2)
      (offset + byteLength r.chars) ws
      fun i t => ∃ base, t.Routed (offset + r.parens) r base i := fun s at_ => by
    obtain ⟨i, s', follows⟩ := h s at_
    exact ⟨i, s', follows.leftHandSide at_ stop, follows.behind, follows.grows, follows.routed⟩
  have noArrow (s : ParserState) (at_ : At offset (r.words ++ ws) c (depth + 1) s) :
      arrowAhead s = (none, s) := by
    apply At.noArrowAhead_route r at_
    rcases isStop_cases stop with k | k | k | k | k <;> rw [k] <;> exact nofun
  have first := r.first_kind
  have unsigned : operatorBefore? c r.first.kind = none := by
    rcases first with k | k | k | k <;> rw [k] <;> rfl
  have noYield : r.first.kind ≠ .word .yieldWord := by
    rcases first with k | k | k | k <;> rw [k] <;> exact nofun
  rw [r.words_eq, List.cons_append] at operand noArrow ⊢
  exact reads_assignment_of_noArrow (by omega) noYield noArrow stop
    (reads_binary room unsigned stop operand)

/-- Routes are read as operands wherever two more phrases can be nested for each parenthesis. -/
theorem follows_route (r : Route) {fuel : Nat} (room : depth + 2 * r.parens + 2 < maxDepth)
    (at_ : At offset (r.words ++ ws) c depth s) :
    ∃ i s', Follows (phrase (fuel + r.parens + 1)) r offset ws c depth s i s' := by
  induction r generalizing fuel depth offset c ws s with
  | name n free =>
    refine follows_head rfl rfl (fun s at_ => ?_) at_
    obtain ⟨i, s', run, after, grows, is⟩ := reads_identifier free.kind_eq s at_
    have size : (n.word false).size = byteLength n.chars := Nat.zero_add _
    rw [size] at after is
    refine ⟨i, s', ?_, after, grows, _, .name is⟩
    have notNew : (n.word false).kind ≠ .word .newWord := by
      change n.kind ≠ _
      rw [free.kind_eq]
      exact nofun
    rw [operandHead_primary notNew at_, run_primary free.kind_eq at_]
    exact run
  | importMeta n =>
    refine follows_head rfl rfl (fun s at_ => ?_) at_
    obtain ⟨i, s', run, result⟩ := reads_importMeta n _ s at_
    refine ⟨i, s', ?_, result⟩
    rw [operandHead_primary (by decide) at_, primary, run_bind (At.kind at_)]
    exact run
  | newMeta n =>
    refine follows_head rfl rfl (fun s at_ => ?_) at_
    obtain ⟨i, s', run, result⟩ := reads_newMeta (by omega) n _ s at_
    refine ⟨i, s', ?_, result⟩
    rw [operandHead, run_bind (At.atWord at_ .newWord)]
    exact run
  | link r l ih =>
    rw [Route.words, List.append_assoc] at at_
    have before : ∃ i s', Follows (phrase (fuel + r.parens + 1)) r offset (l.words ++ ws) c depth s i
        s' := ih room at_
    obtain ⟨i, s', follows⟩ := before
    rw [Route.parens] at room
    exact follows.link (readsKeys_phrase (by omega))
  | parenthesized r ih =>
    refine follows_head rfl rfl (fun s at_ => ?_) at_
    rw [Route.parens] at room ⊢
    -- in parentheses `in` is an operator, and two more phrases are open
    have inner : Reads (phrase (fuel + r.parens + 2) .assignment) (offset + 1)
        (r.words ++ markWord .closeParen false :: ws) c.allowIn depth
        (offset + 1 + byteLength r.chars) (markWord .closeParen false :: ws)
        fun i t => ∃ base, t.Routed (offset + 1 + r.parens) r base i :=
      reads_assignment_route (by omega) rfl fun s at_ => ih (by omega) at_
    obtain ⟨i, s', run, after, grows, base, routed⟩ := reads_parenthesized inner s at_
    rw [Nat.add_right_comm] at routed
    refine ⟨i, s', ?_, after, grows, base, routed⟩
    rw [Route.words] at at_
    have notNew : (markWord .openParen false).kind ≠ .word .newWord := by decide
    rw [operandHead_primary notNew at_, primary, run_bind (At.kind at_)]
    exact run

theorem reads_route {fuel : Nat} (r : Route) (room : depth + 2 * r.parens + 4 < maxDepth)
    (stop : isStop (headKind ws) = true) :
    Reads (phrase (fuel + r.parens + 2) .assignment) offset (r.words ++ ws) c depth
      (offset + byteLength r.chars) ws
      fun i t => ∃ base, t.Routed (offset + r.parens) r base i :=
  reads_assignment_route (by omega) stop fun _ at_ => follows_route r (by omega) at_

/-! ### Statements -/

def ending (semicolon : Bool) : List Word := if semicolon then [markWord .semicolon false] else []

theorem endsStatement_ending (semicolon : Bool) (offset : Nat) :
    EndsStatement offset (ending semicolon) (offset + byteLength (spelled (ending semicolon))) := by
  cases semicolon with
  | false => exact endsStatement_nil offset
  | true => exact endsStatement_semicolon offset

theorem legible_ending (semicolon : Bool) :
    Legible (ending semicolon) ∧ EndsName (spelled (ending semicolon)) := by
  cases semicolon with
  | false => exact ⟨trivial, nofun⟩
  | true => exact ⟨⟨legible_alone rfl false _, trivial⟩, endsName_cons (by decide +kernel) _⟩

theorem begins_route (r : Route) (noLabel : headKind ws ≠ .mark .colon) :
    BeginsExpression r.first.kind (headKind (r.words.tail ++ ws)) := by
  induction r generalizing ws with
  | name n free =>
    have plain : (n.word false).kind = .identifier := free.kind_eq
    rw [Route.first, plain]
    exact .name noLabel
  | importMeta n =>
    have keyword : (AsciiName.importWord.word false).kind = .word .importWord :=
      AsciiName.importWord_kind
    rw [Route.first, keyword]
    exact .importMeta
  | newMeta n =>
    have keyword : (AsciiName.newWord.word false).kind = .word .newWord := AsciiName.newWord_kind
    rw [Route.first, keyword]
    exact .new
  | link r l ih =>
    have other : headKind (l.words ++ ws) ≠ .mark .colon := headKind_link_ne (by decide) l ws
    have tail : (Route.link r l).words.tail ++ ws = r.words.tail ++ (l.words ++ ws) := by
      rw [Route.words, r.words_eq, List.cons_append, List.tail_cons, List.tail_cons,
        List.append_assoc]
    rw [tail]
    exact ih other
  | parenthesized r => exact .group

theorem reads_route_statement {fuel : Nat} (r : Route) (semicolon : Bool)
    (room : depth + 2 * r.parens + 5 < maxDepth) :
    Reads (phrase (fuel + r.parens + 3) .statement) offset (r.words ++ ending semicolon) c depth
      (offset + byteLength (spelled (r.words ++ ending semicolon))) []
      fun i t => ∃ e, (∃ base, t.Routed (offset + r.parens) r base e) ∧
        t.Is i .expressionStatement offset
          (offset + byteLength (spelled (r.words ++ ending semicolon)))
          (.expressionStatement (some e)) := by
  have ends := endsStatement_ending semicolon (offset + byteLength r.chars)
  have value : Reads (phrase (fuel + r.parens + 2) .assignment) offset (r.words ++ ending semicolon) c
      (depth + 1) (offset + byteLength r.chars) (ending semicolon)
      fun i t => ∃ base, t.Routed (offset + r.parens) r base i :=
    reads_route r (by omega) ends.stop
  have noLabel : headKind (ending semicolon) ≠ .mark .colon := by
    cases semicolon <;> exact nofun
  have begins := begins_route r noLabel
  have start : offset + byteLength r.first.margin = offset := by
    rw [r.first_margin]
    rfl
  have stop : offset + byteLength (spelled (r.words ++ ending semicolon)) =
      offset + byteLength r.chars + byteLength (spelled (ending semicolon)) := by
    rw [spelled_append, byteLength_append, r.spelled_words, Nat.add_assoc]
  rw [stop]
  rw [r.words_eq, List.cons_append] at value ⊢
  have statement := reads_statement_of_begins (by omega) begins (reads_expressionStatement
    (fun _ _ _ ⟨base, routed⟩ grows => ⟨base, routed.of_extends grows⟩) ends value)
  rw [start] at statement
  exact statement

end Parser

end PathGuard
