import PathGuard.Grammar.Class
import PathGuard.Proofs.Grammar.Block
/-!
# What the parsers of classes make
-/

namespace PathGuard.Parser

variable {sub : PhraseParser} {at_ : TokenKind → Prop} {role : Role}

def memberRole : Role := .of NodeKind.isClassMember 0

def modifierRole : Role := .of NodeKind.isModifier 0

theorem makes_staticBlock (hsub : MakesPhrases sub) (start : Nat) :
    MakesAt at_ [] (staticBlock sub start) (one memberRole) :=
  .idle Idle.moving.advance fun _ => .within _ (makes_blockFrom hsub (by decide) rfl start)

theorem looks_atConstructorName : Looks atConstructorName := by
  refine Looks.closed.bind looks_kind fun k => ?_
  split
  · exact Looks.closed.bind looks_tokenValue fun _ => Looks.closed.pure _
  · exact Looks.closed.bind looks_tokenValue fun _ => Looks.closed.pure _
  · exact Looks.closed.pure _

theorem makes_field (hsub : MakesPhrases sub) (start : Nat) (modifiers : Option NodeList)
    (marks : MethodMarks) (name : Child) :
    MakesAt at_ (row modifierRole (Record.optionalNodes modifiers) ++
        one (.of NodeKind.isPropertyName 0) name)
      (field sub start modifiers marks name) (one memberRole) := by
  unfold field
  extract_lets join valued
  have joined (value : Child) :
      Makes (row modifierRole (Record.optionalNodes modifiers) ++
          one (.of NodeKind.isPropertyName 0) name ++ one (.of NodeKind.isExpression 0) value)
        (join value) (one memberRole) := by
    refine .idle Idle.moving.endStatement fun _ => ?_
    rw [List.append_assoc]
    exact .add 0 (.append (.row (fun _ _ h => h) (Nat.zero_le 0) _) (.flat (.flat .nil)))
      (fun _ => rfl) rfl
  have valuedToo (u : Unit) :
      Makes (row modifierRole (Record.optionalNodes modifiers) ++
          one (.of NodeKind.isPropertyName 0) name) (valued u) (one memberRole) := by
    refine .idle (Idle.moving.accept _) fun found => ?_
    exact merged <| .call (.optional rfl fun _ => .within _ (makes_assignmentOrReport hsub)) joined
  exact decided (fun _ => .idle (Idle.moving.expect _) valuedToo) fun _ => (valuedToo ()).any

theorem functionName_method (marks : MethodMarks) {plain : NodeKind}
    (h : Record.functionName plain = NodeKind.isPropertyName) :
    Record.functionName (marks.kind plain) = NodeKind.isPropertyName := by
  unfold MethodMarks.kind
  split
  · rfl
  · rfl
  · exact h

theorem becomes_method (marks : MethodMarks) {plain : NodeKind} {role : Role}
    (getter : becomes 1 .getAccessor 0 .function role = true)
    (setter : becomes 1 .setAccessor 0 .function role = true)
    (h : becomes 1 plain 0 .function role = true) :
    becomes 1 (marks.kind plain) 0 .function role = true := by
  unfold MethodMarks.kind
  split
  · exact getter
  · exact setter
  · exact h

theorem makes_namedMember (hsub : MakesPhrases sub) (start : Nat) (modifiers : List Child) :
    MakesAt at_ (row modifierRole modifiers) (namedMember sub start modifiers)
      (one memberRole) := by
  have same : Record.optionalNodes
      (if modifiers.isEmpty then none else some (NodeList.ofNodes modifiers)) = modifiers := by
    cases modifiers <;> rfl
  refine .idle idle_methodMarks fun marks => ?_
  refine merged <|
    .idle (either looks_atConstructorName.idle (Idle.closed.pure _)) fun isConstructor => ?_
  refine (makes_propertyName hsub).call fun name => ?_
  refine decided (fun _ => .pure ?_) fun _ => ?_
  · exact (Part.Covers.missing rfl (.nothing _))
  refine .look (looks_isAt _) fun found => decided (fun _ => ?_) fun _ => ?_
  · have plain : Record.functionName
        (if isConstructor then .constructorDeclaration else .methodDeclaration) =
          NodeKind.isPropertyName := by
      cases isConstructor <;> rfl
    have ok : becomes 1 (if isConstructor then .constructorDeclaration else .methodDeclaration) 0
        .function memberRole = true := by
      cases isConstructor <;> rfl
    rw [← congrArg (row modifierRole) same]
    exact makes_method hsub (functionName_method marks plain) (becomes_method marks rfl rfl ok)
      start _ marks name
  · rw [← congrArg (row modifierRole) same]
    exact makes_field hsub start _ marks name

theorem makes_classMember (hsub : MakesPhrases sub) :
    MakesAt at_ [] (classMember sub) (one memberRole) := by
  refine .look looks_tokenStart fun start => .look (looks_isAt _) fun found => ?_
  refine merged <| .look (either looks_atMemberMark (Looks.closed.pure _)) fun isStatic => ?_
  beta_reduce
  refine decided (fun _ => ?_) fun _ => ?_
  · refine .look looks_peek fun next => decided (fun _ => makes_staticBlock hsub start) fun _ => ?_
    refine .look looks_tokenEnd fun stop => ?_
    refine .bind (Q := one modifierRole) (.addToken rfl rfl) fun modifier => ?_
    exact .idle Idle.moving.advance fun _ => makes_namedMember hsub start [modifier]
  · exact makes_namedMember hsub start []

theorem makes_memberStep (hsub : MakesPhrases sub) (members : List Child) :
    Makes (row memberRole members.reverse) (memberStep sub members)
      fun answer => row memberRole answer.value.reverse := by
  refine .look looks_kind fun k => decided (fun _ => .pure (.refl _)) fun _ => ?_
  refine .idle (Idle.moving.accept _) fun semicolon =>
    decided (fun _ => .pure (.refl _)) fun _ => ?_
  refine .look looks_tokenStart fun start => (makes_classMember hsub).call fun member => ?_
  refine decided (fun _ => .pure (covers_snoc ..)) fun _ => ?_
  refine .look looks_tokenStart fun start' => ?_
  refine decided (fun _ => ?_) fun _ => .pure (.init _ _)
  exact .idle Idle.moving.advance fun _ => .pure (.init _ _)

theorem makes_heritage (hsub : MakesPhrases sub) :
    MakesAt at_ [] (heritage sub) (one (.of NodeKind.isExpression 1)) := by
  refine .idle (Idle.moving.accept _) fun found => decided (fun _ => ?_) fun _ =>
    .pure (.missing rfl .nil)
  refine (hsub .leftHandSide).any.call fun parent => ?_
  refine decided (fun _ => .idle (Idle.moving.reportHere _) fun _ => .pure (.refl _)) fun _ => ?_
  exact .pure (.refl _)

theorem makes_classOf (hsub : MakesPhrases sub) {k : NodeKind} (nameOptional : Bool)
    (ok : becomes 1 k 0 .classLike role = true) :
    MakesAt at_ [] (classOf sub k nameOptional) (one role) := by
  refine .look looks_tokenStart fun start => .idle (Idle.moving.expect _) fun _ => ?_
  refine .look looks_atIdentifier fun found => ?_
  extract_lets join
  have joined (name : Child) : Makes (one (.of NodeKind.isName 0) name) (join name) (one role) := by
    refine (makes_heritage hsub).call fun parent => .look looks_tokenStart fun membersStart => ?_
    refine .idle (Idle.moving.expect _) fun _ => ?_
    refine .call (Q := fun (members : List Child) => row memberRole members.reverse)
      (.repeating (I := fun members => row memberRole members.reverse) (makes_memberStep hsub) [])
      fun members => .idle (Idle.moving.expect _) fun _ => ?_
    refine .upon (Q := fun members => row memberRole members.nodes) _ (.rowFrom fun _ => .refl _)
      fun members => ?_
    exact .add 1 (.flat (.same (Nat.le_refl 1) (.row (fun _ _ h => h) (Nat.zero_le 1) _)))
      (fun _ => rfl) ok
  refine decided (fun _ => (makes_identifier rfl rfl).call joined) fun _ => ?_
  refine decided (fun _ => .idle (Idle.moving.reportHere _) fun _ => ?_) fun _ =>
    .without rfl joined
  exact .without rfl joined

end PathGuard.Parser
