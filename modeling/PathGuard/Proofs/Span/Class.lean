import PathGuard.Proofs.Grammar.Class
import PathGuard.Proofs.Span.Block
/-!
# Where classes lie

A class that names nothing behind `extends` has no `extends`: the token behind its `class`, or behind
its name, is another one.
-/

namespace PathGuard.Parser

open Item

variable {x : Setting} {ready : Bool} {at_ : Lexer → Prop} {sub : PhraseParser} {start : Nat}
  {moved : Bool}

/-! ### Members -/

theorem lays_staticBlock (hsub : LaysPhrases x sub) (notEnd : ∀ l, at_ l → NotEnd l) :
    LaysAt x ready at_ [.mark start moved] (staticBlock sub start) (single .firm) :=
  .advance notEnd (.within _ (lays_blockFrom hsub rfl rfl))

theorem lays_field (hsub : LaysPhrases x sub) (modifiers : Option NodeList) (marks : MethodMarks)
    (name : Child) :
    LaysAt x ready at_
      (.mark start moved :: (several .firm (Record.optionalNodes modifiers) ++ single .firm name))
      (field sub start modifiers marks name) (single .firm) := by
  unfold field
  extract_lets join valued
  have joined {ready : Bool} (value : Child) : Lays x ready
      (.mark start moved :: (several .firm (Record.optionalNodes modifiers) ++ single .firm name) ++
        single .loose value) (join value) (single .firm) := by
    refine .steady Steady.moving.endStatement fun _ => ?_
    rw [List.cons_append, List.append_assoc]
    have fills : Item.Fills (several .firm (Record.optionalNodes modifiers) ++
        (single .firm name ++ single .loose value))
        (Record.places .propertyDeclaration (.propertyDeclaration modifiers name value)) :=
      .append (.several rfl _) (.must rfl (.may .nil))
    refine .add rfl fills ?_ rfl
    simp [single, isFirm, Grade.firm]
  have valuedToo (u : Unit) : Lays x ready
      (.mark start moved :: (several .firm (Record.optionalNodes modifiers) ++ single .firm name))
      (valued u) (single .firm) := by
    have value : Lays x true [] (within .ofMember (assignmentOrReport sub)) (single .loose) :=
      .within _ ((lays_assignmentOrReport hsub).imp fun _ => .loose .nil)
    refine .acceptMark (.given ?_ (.of_pass _)) (.without rfl joined)
    exact value.call joined
  exact decided (fun _ => .steady (Steady.moving.expect _) valuedToo) fun _ => (valuedToo ()).any

theorem plain_method (marks : MethodMarks) {plain : NodeKind}
    (h : (plain != .variableDeclarationList) = true) :
    (marks.kind plain != .variableDeclarationList) = true := by
  unfold MethodMarks.kind
  split
  · rfl
  · rfl
  · exact h

theorem lays_namedMember (hsub : LaysPhrases x sub) (modifiers : List Child) :
    LaysAt x ready at_ (.mark start moved :: several .firm modifiers)
      (namedMember sub start modifiers) (single .firm) := by
  have same : Record.optionalNodes
      (if modifiers.isEmpty then none else some (NodeList.ofNodes modifiers)) = modifiers := by
    cases modifiers <;> rfl
  refine .steady steady_methodMarks fun marks => ?_
  refine merged <|
    .look (either looks_atConstructorName (Looks.closed.pure _)) fun isConstructor => ?_
  refine (lays_propertyName hsub).call fun name => ?_
  refine decided (fun none_ => .pureNone none_ (.tail _ (.refl _))) fun _ => ?_
  refine .look (looks_isAt _) fun found => decided (fun _ => ?_) fun _ => ?_
  · have shape : (if isConstructor then .constructorDeclaration else .methodDeclaration :
        NodeKind).shape? = some .function := by
      cases isConstructor <;> rfl
    have plain : ((if isConstructor then .constructorDeclaration else .methodDeclaration :
        NodeKind) != .variableDeclarationList) = true := by
      cases isConstructor <;> rfl
    rw [← congrArg (several .firm) same]
    exact lays_method hsub (shape_method marks shape) (plain_method marks plain) _ marks
  · rw [← congrArg (several .firm) same]
    exact lays_field hsub _ marks name

theorem lays_classMember (hsub : LaysPhrases x sub) :
    LaysAt x ready at_ [] (classMember sub) (single .firm) := by
  refine .mark fun start => .isAt ?_ ?_
  swap
  · rw [if_neg Bool.false_ne_true]
    exact atOnce (lays_namedMember hsub [])
  refine .look looks_atMemberMark fun isStatic => ?_
  beta_reduce
  refine decided (fun _ => ?_) fun _ => ?_
  · refine .look looks_peek fun next => decided (fun _ => ?_) fun _ => .stop fun stop => ?_
    · exact lays_staticBlock hsub fun l here => notEnd_word here.2
    · refine .addAhead (g := .firm) rfl (fun l here => notEnd_word here.1.2)
        (fun l here => here.1.1.2) (fun l sits here => ?_) (fun l sits here _ => ?_) fun modifier => ?_
      · rw [← here.2]
        exact ⟨(sits.first.trans sits.here).boundary, Nat.le_refl _⟩
      · rw [← here.1.1.2, ← here.2]
        exact (sits.more (notEnd_word here.1.2)).offset_lt
      · exact lays_namedMember hsub [modifier]
  · exact lays_namedMember hsub []

theorem lays_memberStep (hsub : LaysPhrases x sub) (members : List Child) :
    Lays x ready (several .firm members.reverse) (memberStep sub members)
      fun answer => several .firm answer.value.reverse := by
  refine .look looks_kind fun k => decided (fun _ => .pure (.refl _)) fun _ => ?_
  refine .steady (Steady.moving.accept _) fun semicolon =>
    decided (fun _ => .pure (.refl _)) fun _ => ?_
  refine .look looks_tokenStart fun start => (lays_classMember hsub).call fun member => ?_
  refine decided (fun _ => .pure (.snoc ..)) fun _ => .look looks_tokenStart fun start' => ?_
  refine decided (fun _ => ?_) fun _ => .pure (.init _ _)
  exact .steady Steady.moving.advance fun _ => .pure (.init _ _)

/-! ### What a class extends -/

/-- Whether nothing is left out behind an `extends`: there is a part, or the token is another one. -/
def extended (parent : Child) (k : TokenKind) : Bool := parent.isSome || k != .word .extendsWord

theorem LaysAt.heritage {β : Type} {P : List Item} {next : Child → Parser β} {R : β → List Item}
    {k : TokenKind} (hsub : LaysPhrases x sub) (here : ∀ l, at_ l → l.kind = k)
    (then_ : ∀ parent, Lays x ready (P ++ [.piece parent .loose, .note (extended parent k)])
      (next parent) R) :
    LaysAt x ready at_ P (Parser.heritage sub >>= next) R := by
  have found : Lays x true [] (do
      let parent ← sub .leftHandSide
      if parent.isNone then reportHere .expressionExpected
      return parent) (single .firm) := by
    refine (hsub .leftHandSide).any.call fun parent => ?_
    refine decided (fun _ => .steady (Steady.moving.reportHere _) fun _ => .pure (.refl _)) fun _ => ?_
    exact .pure (.refl _)
  unfold Parser.heritage
  rw [bind_assoc]
  refine .acceptWord (.given ?_ (.of_pass _)) ?_
  · rw [if_pos rfl]
    refine found.call fun parent => .notice (extended parent k) (fun s holds _ clean => ?_) ?_
    · have there := (holds _ (List.mem_append_right _ (List.mem_singleton_self _))).2 rfl clean
      rw [extended, Option.isSome_iff_ne_none.2 there, Bool.true_or]
    · refine (then_ parent).spare.given ?_
      rw [List.append_assoc]
      exact (Covers.loose (.keep .nil)).append_left P
  · rw [if_neg Bool.false_ne_true]
    refine atOnce (.notice (extended none k) (fun s _ at_ _ => ?_) ?_)
    · rw [extended, ← here _ at_.1, bne_iff_ne.2 at_.2, Bool.or_true]
    · exact (then_ none).any.given ((Covers.missing rfl (.keep .nil)).append_left P)

theorem lays_classBody (hsub : LaysPhrases x sub) {k : NodeKind} {name : Child} {next : TokenKind}
    (shape : k.shape? = some .classLike) (plain : k ≠ .variableDeclarationList) :
    LaysAt x ready (fun l => l.kind = next)
      [.mark start true, .piece name .loose,
        .note (next == kindBehind x.text start (if name.isSome then 2 else 1))]
      (do
        let parent ← heritage sub
        let membersStart ← tokenStart
        expectMark .openBrace
        let members ← repeating (memberStep sub) []
        expectMark .closeBrace
        let members ← rowFrom membersStart members.reverse false
        add k start (.classLike name parent members)) (single .firm) := by
  refine .heritage hsub (fun _ here => here) fun parent => .look looks_tokenStart fun membersStart => ?_
  refine .expectMark (.call (Q := fun (members : List Child) => several .firm members.reverse) ?_
    fun members => .steady (Steady.moving.expect _) fun _ => ?_)
  · exact .repeating (I := fun members => several .firm members.reverse) (lays_memberStep hsub) []
  refine .upon (Q := fun members => several .firm members.nodes) _ (.rowFrom fun _ => .refl _)
    fun members => ?_
  refine .imp (.addWhole shape (.may (.skip rfl (.may (.skip rfl (.several rfl _))))) rfl
    fun parts notes => ⟨parts, fun list => absurd list plain, ?_⟩) fun _ => .drop (.keep .nil)
  rintro _ _ ⟨⟩
  have token : next = kindBehind x.text start (if name.isSome then 2 else 1) :=
    eq_of_beq (notes _ (by simp [Item.pass]))
  have other : extended none next = true := notes _ (by simp [Item.pass])
  rw [← token]
  exact bne_iff_ne.1 other

theorem lays_classOf (hsub : LaysPhrases x sub) {k : NodeKind} (nameOptional : Bool)
    (here : ∀ l, at_ l → l.kind = .word .classWord) (shape : k.shape? = some .classLike)
    (plain : k ≠ .variableDeclarationList) :
    LaysAt x ready at_ [] (classOf sub k nameOptional) (single .firm) := by
  refine .mark fun start => .sitting <| .expectThere (fun l h => here l h.1.1) (by simp) ?_
  have behind {l : Lexer} (found : (at_ l ∧ l.first.offset = start) ∧ l.Sits x.text) (n : Nat) :
      (Nat.repeat Lexer.scan (n + 1) l).kind = kindBehind x.text start (n + 1) := by
    have kind := here l found.1.1
    rw [← found.1.2]
    refine (Lexer.kindBehind_of_sits found.2 (by simp [kind]) ?_ (by simp [kind]) n).symm
    rw [kind]
    rfl
  extract_lets join unnamed
  -- the token behind the name tells whether the class extends something
  have joined {at' : Lexer → Prop} {items : List Item} (name : Child)
      (known : ∀ s : ParserState, (∀ p ∈ items, p.Holds x.text s) → at' s.lexer → s.problems = [] →
        s.lexer.kind = kindBehind x.text start (if name.isSome then 2 else 1))
      (covers : Covers items [.mark start true, .piece name .loose]) :
      LaysAt x true at' items (join name) (single .firm) := by
    refine .ofKind fun next => .notice _ (fun s holds now clean => ?_)
      (((lays_classBody hsub shape plain).at' fun l now => now.2).given (covers.append_right _))
    rw [← now.2, known s holds now.1 clean, beq_self_eq_true]
  -- where a problem was noted, nothing has to be known of that token
  have lost {at' : Lexer → Prop} (name : Child) : LaysAt x true at'
      ([.mark start true, .note false] ++ single .loose name) (join name) (single .firm) :=
    joined name (fun s holds _ clean => Bool.noConfusion (holds (.note false) (by simp) clean))
      (.keep (.drop (.refl _)))
  refine .ask looks_atIdentifier notEnd_of_atIdentifier ?_ ?_
  · unfold identifier
    rw [bind_assoc]
    refine .ask looks_atIdentifier notEnd_of_atIdentifier ?_ ?_
    · refine .name rfl (fun l now => now.2) fun i => joined (some i) (fun s _ now _ => ?_)
        (.keep (.loose .nil))
      obtain ⟨l', ⟨⟨⟨l, first, rfl⟩, _⟩, _⟩, second⟩ := now
      rw [second]
      exact behind first 1
    · rw [if_neg Bool.false_ne_true, bind_assoc]
      exact .report (.without rfl fun name => lost name)
  · rw [if_neg Bool.false_ne_true]
    refine decided (fun _ => .report (.without rfl fun name => lost name)) fun _ => ?_
    unfold unnamed
    refine atOnce ?_
    refine joined none (fun s _ now _ => ?_) (.keep (.missing rfl .nil))
    obtain ⟨l, first, second⟩ := now
    rw [second]
    exact behind first 0

end PathGuard.Parser
