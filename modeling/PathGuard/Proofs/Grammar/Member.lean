import PathGuard.Grammar.Member
import PathGuard.Proofs.Grammar.Primary
/-!
# What the parsers of members and calls make

The links of a chain carry the mark of an optional chain exactly from the first `?.` on: while links
are read, the parser remembers whether the expression so far carries it.
-/

namespace PathGuard.Parser

variable {sub : PhraseParser} {at_ : TokenKind → Prop} {role : Role}

/-- An expression that links may follow, and whether it belongs to an optional chain. -/
def linkRole (chained : Bool) : Role :=
  ⟨fun k flags => k.isExpression && ((flags &&& NodeFlag.optionalChain != 0) == chained), 1, true⟩

theorem isExpression_of_link (chained : Bool) (k : NodeKind) (flags : Nat)
    (h : (linkRole chained).admits k flags = true) : k.isExpression = true :=
  (Bool.and_eq_true_iff.1 h).1

theorem chained_of_free {object : Child} {chained : Bool} {base bound : Nat} {t : Tree}
    (h : Part.Free ⟨object, linkRole chained⟩ base bound t) : t.chained object = chained := by
  cases object with
  | none => exact absurd rfl (h.sure rfl)
  | some i =>
    obtain ⟨-, n, hn, -, admits, -⟩ := h.node i rfl
    rw [Tree.chained_of_node hn]
    exact eq_of_beq (Bool.and_eq_true_iff.1 admits).2

theorem becomes_link {k : NodeKind} {shape : Shape} {chained : Bool} (there : k.shape? = some shape)
    (expression : k.isExpression = true) (flat : k.weight = 0) :
    becomes 1 k (chainMark chained) shape (linkRole chained) = true := by
  have marked : (chainMark chained &&& NodeFlag.optionalChain != 0) = chained := by
    cases chained <;> rfl
  simp [becomes, linkRole, there, expression, flat, marked]

/-! ### Arguments -/

def argumentRole : Role := .of NodeKind.isArgument 0

theorem makes_argumentStep (hsub : MakesPhrases sub) (acc : List Child × Bool) :
    Makes (row argumentRole acc.1.reverse) (argumentStep sub acc)
      fun answer => row argumentRole answer.value.1.reverse := by
  refine .look looks_kind fun k => decided (fun _ => .pure (.refl _)) fun _ => ?_
  refine (makes_spreadOrAssignment hsub rfl isArgument_of_expression).call fun argument => ?_
  refine decided (fun _ => .idle (Idle.moving.reportHere _) fun _ => .pure (.init _ _)) fun _ => ?_
  refine .idle (Idle.moving.accept _) fun comma => decided (fun _ => ?_) fun _ =>
    .pure (covers_snoc ..)
  exact .look (looks_isAt _) fun last => .pure (covers_snoc ..)

theorem makes_argumentList (hsub : MakesPhrases sub) :
    MakesAt at_ [] (argumentList sub) fun arguments => row argumentRole arguments.nodes := by
  refine .look looks_tokenStart fun start => .idle (Idle.moving.expect _) fun _ => ?_
  refine .bind (Q := fun (acc : List Child × Bool) => row argumentRole acc.1.reverse)
    (.within _ (.repeating (I := fun acc => row argumentRole acc.1.reverse)
      (makes_argumentStep hsub) ([], false))) fun acc => .idle (Idle.moving.expect _) fun _ => ?_
  exact .rowFrom fun _ => .refl _

/-! ### Links -/

section Links

variable {object : Child} {chained questionDot : Bool}

theorem makes_propertyAccess (linked : Bool)
    (marks : linked = (questionDot || chained)) (start : Nat) :
    MakesAt at_ (one (linkRole chained) object) (propertyAccess (chainMark linked) start object questionDot)
      (one (linkRole linked)) := by
  refine .call (Q := one (.of NodeKind.isMemberName 0)) (makes_identifierName rfl (fun _ => rfl) rfl)
    fun name => ?_
  refine .addFlagged 1 (.part (isExpression_of_link chained) (Nat.le_refl 1) (.flat .nil))
    (fun base bound t free => ?_) (becomes_link rfl rfl rfl)
  have known := chained_of_free (free _ (List.mem_cons_self ..))
  rw [Tree.Marked, known, marks]

theorem makes_elementAccess (hsub : MakesPhrases sub) (linked : Bool)
    (marks : linked = (questionDot || chained)) (start : Nat) :
    MakesAt at_ (one (linkRole chained) object) (elementAccess sub (chainMark linked) start object questionDot)
      (one (linkRole linked)) := by
  refine .idle (Idle.moving.expect _) fun _ => ?_
  refine MakesAt.call (.within _ (makes_expression hsub)) fun key => ?_
  refine .idle (Idle.moving.expect _) fun _ => ?_
  refine .addFlagged 1 (.part (isExpression_of_link chained) (Nat.le_refl 1) (.flat .nil))
    (fun base bound t free => ?_) (becomes_link rfl rfl rfl)
  have known := chained_of_free (free _ (List.mem_cons_self ..))
  rw [Tree.Marked, known, marks]

theorem makes_call (hsub : MakesPhrases sub) (linked questionDot : Bool)
    (marks : linked = (questionDot || chained)) (start : Nat) :
    MakesAt at_ (one (linkRole chained) object) (call sub (chainMark linked) start object)
      (one (linkRole linked)) := by
  refine (makes_argumentList hsub).call fun arguments => ?_
  refine .addFlagged 1 (.part (isExpression_of_link chained) (Nat.le_refl 1)
    (.row (fun _ _ h => h) (Nat.zero_le 1) _)) (fun base bound t free => ?_)
    (becomes_link rfl rfl rfl)
  have known := chained_of_free (free _ (List.mem_cons_self ..))
  rw [Tree.Marked, known, marks]
  cases chained
  · cases questionDot
    · exact .inl ⟨rfl, .inr rfl⟩
    · exact .inr ⟨rfl, rfl⟩
  · rw [Bool.or_true]
    exact .inr ⟨rfl, rfl⟩

theorem makes_optionalLink (hsub : MakesPhrases sub) (start : Nat) :
    MakesAt at_ (one (linkRole chained) object) (optionalLink sub start object)
      (one (linkRole true)) := by
  refine .look looks_kind fun k => ?_
  split
  · exact makes_elementAccess hsub true rfl start
  · exact makes_call hsub true true rfl start
  · exact makes_propertyAccess true rfl start

theorem makes_taggedTemplate (hsub : MakesPhrases sub) (start : Nat) :
    MakesAt IsLiteral (one (linkRole chained) object)
      (taggedTemplate sub chained (chainMark chained) start object) (one (linkRole chained)) := by
  unfold taggedTemplate
  extract_lets join
  have joined (u : Unit) :
      MakesAt IsLiteral (one (linkRole chained) object) (join u) (one (linkRole chained)) := by
    refine .call (Q := one (.of NodeKind.isTemplate 0)) (makes_template hsub (fun _ => rfl) rfl)
      fun text => ?_
    refine .addFlagged 1 (.part (isExpression_of_link chained) (Nat.le_refl 1) (.flat .nil))
      (fun base bound t free => ?_) (becomes_link rfl rfl rfl)
    have known := chained_of_free (free _ (List.mem_cons_self ..))
    rw [Tree.Marked, known]
  exact decided (fun _ => .note (joined ())) fun _ => joined ()

end Links

theorem makes_linkStep (hsub : MakesPhrases sub) (start : Nat) (allowCalls : Bool)
    (acc : Child × Bool) :
    Makes (one (linkRole acc.2) acc.1) (linkStep sub start allowCalls acc)
      fun answer => one (linkRole answer.value.2) answer.value.1 := by
  obtain ⟨object, chained⟩ := acc
  have text (l : LiteralKind) : MakesAt (· = .literal l) (one (linkRole chained) object)
      (taggedTemplate sub chained (chainMark chained) start object) (one (linkRole chained)) :=
    (makes_taggedTemplate hsub start).weaken fun k here => ⟨l, here⟩
  refine .kind fun k _ => ?_
  split
  · exact .idle Idle.moving.advance fun _ => .bind (makes_propertyAccess chained rfl start) fun _ =>
      .pure (.refl _)
  · exact .bind (makes_elementAccess hsub chained rfl start) fun _ => .pure (.refl _)
  · refine decided (fun _ => ?_) fun _ => .pure (.refl _)
    exact .bind (makes_call hsub chained false rfl start) fun _ => .pure (.refl _)
  · refine decided (fun _ => ?_) fun _ => .pure (.refl _)
    exact .idle Idle.moving.advance fun _ => .bind (makes_optionalLink hsub start) fun _ =>
      .pure (.refl _)
  · exact .bind (text _) fun _ => .pure (.refl _)
  · exact .bind (text _) fun _ => .pure (.refl _)
  · exact .pure (.refl _)

theorem makes_links (hsub : MakesPhrases sub) (start : Nat) (object : Child) (allowCalls : Bool) :
    MakesAt at_ (one (linkRole false) object) (links sub start object allowCalls)
      (one (.of NodeKind.isExpression 1)) := by
  refine .bind (.repeating (I := fun acc => one (linkRole acc.2) acc.1)
    (makes_linkStep hsub start allowCalls) (object, false)) fun acc => .pure ?_
  exact .keep ⟨rfl, isExpression_of_link _, Nat.le_refl 1, fun _ => .inl rfl⟩ .nil

/-! ### What the links follow -/

theorem covers_link {rise : Nat} {object : Child} (low : rise ≤ 1) (there : object ≠ none) :
    Part.Covers (one (.plain NodeKind.isExpression rise) object) (one (linkRole false) object) := by
  refine .keep ⟨rfl, fun k flags h => ?_, low, fun _ => .inr there⟩ .nil
  simp only [Role.plain, Bool.and_eq_true, beq_iff_eq] at h
  simp [linkRole, h]

theorem makes_callee (hsub : MakesPhrases sub) :
    MakesAt at_ [] (callee sub) (one (.of NodeKind.isExpression 1)) := by
  refine .look looks_tokenStart fun start => .look (looks_isAt _) fun new => ?_
  extract_lets join
  have joined (rise : Nat) (low : rise ≤ 1) (object : Child) :
      Makes (one (.plain NodeKind.isExpression rise) object) (join object)
        (one (.of NodeKind.isExpression 1)) := by
    unfold join
    refine decided (fun there => ?_) fun _ => .idle (Idle.moving.reportHere _) fun _ => ?_
    · have present : object ≠ none := Option.isSome_iff_ne_none.1 there
      exact (makes_links hsub start object false).given (covers_link low present)
    · exact .pure (.missing rfl (.nothing _))
  refine decided (fun _ => ?_) fun _ => ?_
  · exact (hsub .newExpression).any.call (joined 0 (Nat.zero_le 1))
  · exact (makes_primary hsub).call (joined 1 (Nat.le_refl 1))

theorem makes_newExpression (hsub : MakesPhrases sub) :
    MakesAt at_ [] (newExpression sub) (one (.plain NodeKind.isExpression 0)) := by
  refine .nested (by decide : 1 ≤ 2) ?_
  refine .look looks_tokenStart fun start => .idle Idle.moving.advance fun _ => ?_
  refine .idle (Idle.moving.accept _) fun dot => decided (fun _ => ?_) fun _ => ?_
  · refine .bind (Q := one (.of NodeKind.isMemberName 0)) (makes_identifierName rfl (fun _ => rfl) rfl)
      fun name => ?_
    exact .add 0 (.flat .nil) (fun _ => rfl) rfl
  · refine (makes_callee hsub).call fun object => .look (looks_isAt _) fun group => ?_
    extract_lets join
    have joined (arguments : Option NodeList) :
        Makes (one (.of NodeKind.isExpression 1) object ++
            row argumentRole (Record.optionalNodes arguments)) (join arguments)
          (one (.plain NodeKind.isExpression 1)) :=
      .addFlagged 1 (.same (Nat.le_refl 1) (.row (fun _ _ h => h) (Nat.zero_le 1) _))
        (fun _ _ _ _ => .inl ⟨rfl, .inl rfl⟩) rfl
    refine decided (fun _ => ?_) fun _ => atOnce (joined none).any
    refine .call (Q := fun arguments => row argumentRole (Record.optionalNodes arguments)) ?_ joined
    exact mapped (.bind (makes_argumentList hsub) fun _ => .pure (.refl _))

theorem makes_leftHandSide (hsub : MakesPhrases sub) :
    MakesAt at_ [] (leftHandSide sub) (one (.of NodeKind.isExpression 1)) := by
  refine .look looks_tokenStart fun start => .look (looks_isAt _) fun new => ?_
  extract_lets join
  have joined (rise : Nat) (low : rise ≤ 1) (object : Child) :
      Makes (one (.plain NodeKind.isExpression rise) object) (join object)
        (one (.of NodeKind.isExpression 1)) := by
    unfold join
    refine decided (fun _ => .pure (.missing rfl (.nothing _))) fun there => ?_
    have present : object ≠ none := fun absent => there (absent ▸ rfl)
    exact (makes_links hsub start object true).given (covers_link low present)
  refine decided (fun _ => ?_) fun _ => ?_
  · exact (makes_newExpression hsub).call (joined 0 (Nat.zero_le 1))
  · exact (makes_primary hsub).call (joined 1 (Nat.le_refl 1))

end PathGuard.Parser
