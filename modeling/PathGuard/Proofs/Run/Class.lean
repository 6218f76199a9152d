import PathGuard.Proofs.Run.Block
import PathGuard.Proofs.Span.Class
/-!
# Running classes

A member that is there took a token, and where none is there the current token is skipped.
-/

namespace PathGuard.Parser

open Known

variable {x : Room} {ready : Bool} {at_ : Lexer → Prop} {sub sub' : PhraseParser} {start n : Nat}

/-! ### Members -/

theorem passes_staticBlock (tied : Tied x sub sub') (notEnd : ∀ l, at_ l → NotEnd l) :
    PassesAt x true at_ (staticBlock sub start) (staticBlock sub' start) plain :=
  fun _ => .advance notEnd (RunsAt.retain ((RunsAt.within _ (runs_blockFrom tied rfl)).given .nil))

theorem runs_field (tied : Tied x sub sub') (modifiers : Option NodeList) (marks : MethodMarks)
    (name : Child) :
    RunsAt x true at_ [] (field sub start modifiers marks name) (field sub' start modifiers marks name)
      plain := by
  have joined (value : Child) : Runs x true [] (do
      endStatement
      add .propertyDeclaration start (.propertyDeclaration modifiers name value)) (do
      endStatement
      add .propertyDeclaration start (.propertyDeclaration modifiers name value)) plain :=
    .steady runs_endStatement fun _ => .add rfl
  unfold field
  refine .mergedWhen <| .steady (.ite (fun _ => runs_expectMark _) fun _ => .pure .nil) fun _ => ?_
  refine .acceptMark ?_ (.known (joined none).any)
  exact .steady (.within _ ((runs_assignmentOrReport tied).imp fun _ => .nil)) joined

theorem ordinary_method (marks : MethodMarks) {plain : NodeKind} (h : plain.isOrdinary = true) :
    (marks.kind plain).isOrdinary = true := by
  unfold MethodMarks.kind
  split
  · rfl
  · rfl
  · exact h

theorem runs_namedMember (tied : Tied x sub sub') (modifiers : List Child) (n : Nat) :
    RunsAt x true at_ [.since n false] (namedMember sub start modifiers)
      (namedMember sub' start modifiers) (named n) := by
  refine .steady runs_methodMarks fun marks => ?_
  refine .merged <|
    .look (either looks_atConstructorName (Looks.closed.pure _)) fun isConstructor => ?_
  refine (runs_propertyName tied n).bind fun name => ?_
  cases name with
  | none => exact .pure (.refl _)
  | some i =>
    have done {act act' : Parser Child} (h : Runs x true [] act act' plain) :
        Runs x true (named n (some i)) act act' (named n) :=
      RunsAt.imp ((h.given .nil).retain.given (P := [.since n true]) (.subset (by simp [named])))
        (covers_named n)
    refine .look (looks_isAt _) fun found => .ite (fun _ => ?_) fun _ => ?_
    · refine done (runs_method tied (ordinary_method marks ?_) _ marks _)
      cases isConstructor <;> rfl
    · exact done (runs_field tied _ marks _)

theorem runs_classMember (tied : Tied x sub sub') (n : Nat) :
    RunsAt x true at_ [.since n false] (classMember sub) (classMember sub') (named n) := by
  refine .look looks_tokenStart fun start => .isAt ?_ (.known (runs_namedMember tied [] n))
  refine .look looks_atMemberMark fun isStatic => .ite (fun _ => ?_) fun _ => runs_namedMember tied [] n
  refine .look looks_peek fun next => .ite (fun _ => ?_) fun _ => .look looks_tokenEnd fun stop => ?_
  · exact RunsAt.imp (passes_staticBlock tied (fun l here => notEnd_word here.2) n) (covers_named n)
  · refine .still (.addToken rfl) (fun s => rfl) fun modifier => ?_
    refine .advance (fun l here => notEnd_word here.2) ?_
    exact .given (runs_namedMember tied [modifier] n) (.one (gives_since (by simp) _))

theorem runs_memberStep (tied : Tied x sub sub') (members : List Child) (n : Nat) :
    Runs x true [.since n false] (memberStep sub members) (memberStep sub' members)
      (stepped (fun _ => []) n) := by
  refine .kind fun k => .ite (fun _ => .pure .nil) fun goesOn => ?_
  refine .acceptMark (.pure (.subset (by simp))) (.place fun start => ?_)
  refine .fork (runs_classMember tied n) (fun member => ?_) fun member => ?_
  · cases member with
    | some i => exact .pure (.one (gives_mem (by simp [named])))
    | none =>
      refine .place fun start' => .ite (fun _ => ?_) fun moved => .absurd ?_
      · refine .advance (fun l here ended => ?_) (.pure (.subset (by simp [named])))
        simp [← here.1.1.1.2, ended] at goesOn
      · rintro l ⟨⟨-, rfl⟩, rfl⟩
        exact moved rfl
  · refine .ite (fun _ => .pure (.subset (by simp))) fun _ => ?_
    refine .place fun start' => .ite (fun same => .absurd ?_) fun _ => .pure (.subset (by simp))
    rintro l ⟨⟨l', ⟨-, rfl⟩, before⟩, rfl⟩
    omega

/-! ### Classes -/

theorem runs_heritage (tied : Tied x sub sub') :
    RunsAt x ready at_ [] (heritage sub) (heritage sub') fun _ => [] := by
  refine .acceptWord ?_ (.pure .nil)
  refine (tied.at' .leftHandSide).any.call fun parent => ?_
  exact .mergedWhen <| .steady (.ite (fun _ => runs_reportHere _) fun _ => .pure .nil) fun _ =>
    .pure .nil

theorem runs_classOf (tied : Tied x sub sub') {k : NodeKind} (nameOptional : Bool)
    (here : ∀ l, at_ l → l.kind = .word .classWord) (ordinary : k.isOrdinary = true) :
    RunsAt x ready at_ [] (classOf sub k nameOptional) (classOf sub' k nameOptional) plain := by
  refine .look looks_tokenStart fun start => .expectThere here (by simp) ?_
  refine .look looks_atIdentifier fun found => ?_
  extract_lets join nameless join'
  have joined (name : Child) (P : List Known) : Runs x true P (join name) (join' name) plain := by
    refine .steady (runs_heritage tied) fun parent => .look looks_tokenStart fun membersStart => ?_
    refine .steady (runs_expectMark _) fun _ => ?_
    refine .steady (.repeatingPlain (runs_memberStep tied) []) fun members => ?_
    exact .steady (runs_expectMark _) fun _ => .look (fun s => rfl) fun members => .add ordinary
  refine .ite (fun _ => .call runs_identifier fun name => joined name _) fun _ => ?_
  exact .mergedWhen <| .steady (.ite (fun _ => runs_reportHere _) fun _ => .pure .nil) fun _ =>
    .known (joined none _)

end PathGuard.Parser
