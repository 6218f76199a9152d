import PathGuard.Grammar.Name
import PathGuard.Proofs.Grammar.Adding
/-!
# What the parsers of names make

What each phrase makes, and with it the parsers of names, of literals and of expressions with
commas.
-/

namespace PathGuard

/-- What a phrase makes. Only what `new` begins is known to belong to no optional chain. -/
def Phrase.role : Phrase → Role
  | .statement => .of NodeKind.isStatement 0
  | .assignment | .unary | .binary _ => .of NodeKind.isExpression 0
  | .leftHandSide => .of NodeKind.isExpression 1
  | .newExpression => .plain NodeKind.isExpression 0
  | .binding => .of NodeKind.isBinding 0

namespace Parser

def MakesPhrases (sub : PhraseParser) : Prop := ∀ p, Makes [] (sub p) (one p.role)

variable {sub : PhraseParser} {at_ : TokenKind → Prop} {role : Role}

/-! ### Expressions -/

theorem makes_assignmentOrReport (hsub : MakesPhrases sub) :
    MakesAt at_ [] (assignmentOrReport sub) (one (.of NodeKind.isExpression 0)) := by
  refine (hsub .assignment).any.call fun value => ?_
  refine decided (fun _ => .idle (Idle.moving.reportHere _) fun _ => .pure (.refl _)) fun _ => ?_
  exact .pure (.refl _)

theorem makes_expression (hsub : MakesPhrases sub) :
    MakesAt at_ [] (expression sub) (one (.of NodeKind.isExpression 0)) := by
  refine .look looks_tokenStart fun start => ?_
  refine (hsub .assignment).any.call fun left => ?_
  refine decided (fun _ => .idle (Idle.moving.reportHere _) fun _ => ?_) fun _ => ?_
  · exact .pure (.drop (.missing rfl .nil))
  refine .repeating (I := one (.of NodeKind.isExpression 0)) (fun left => ?_) left
  refine .idle (Idle.moving.accept _) fun comma => decided (fun _ => ?_) fun _ => .pure (.refl _)
  refine (makes_assignmentOrReport hsub).call fun right => ?_
  refine .bind (Q := one (.of NodeKind.isExpression 0)) ?_ fun node => .pure (.refl _)
  exact .add 0 (.flat (.flat .nil)) (fun _ => rfl) rfl

theorem makes_initializer (hsub : MakesPhrases sub) :
    MakesAt at_ [] (initializer sub) (one (.of NodeKind.isExpression 0)) := by
  refine .idle (Idle.moving.accept _) fun found => ?_
  exact decided (fun _ => makes_assignmentOrReport hsub) fun _ => .pure (.missing rfl .nil)

/-! ### Single tokens -/

theorem makes_takeIdentifier {k : TokenKind} (ok : becomes 0 (.token k) 0 .identifier role = true) :
    MakesAt at_ [] (takeIdentifier k) (one role) := by
  refine .look looks_tokenStart fun start => .look looks_tokenEnd fun stop => ?_
  refine .look looks_tokenValue fun text => .idle Idle.moving.advance fun _ => ?_
  exact .addSpanned 0 .nil (fun _ => rfl) ok

def IsLiteral (k : TokenKind) : Prop := ∃ l, k = .literal l

theorem makes_takeLiteral (ok : ∀ l, becomes 0 (.token (.literal l)) 0 .literal role = true) :
    MakesAt IsLiteral [] takeLiteral (one role) := by
  refine .kind fun k literal => ?_
  obtain ⟨l, rfl⟩ := literal
  refine .look looks_tokenStart fun start => .look looks_tokenEnd fun stop => ?_
  refine .look looks_tokenValue fun value => .look looks_tokenText fun text => ?_
  refine .idle Idle.moving.advance fun _ => ?_
  exact .addSpanned 0 .nil (fun _ => rfl) (ok l)

theorem makes_takeToken (ok : ∀ k, at_ k →
    NodeKind.shape? (.token k) = none ∧ role.admits (.token k) 0 = true) :
    MakesAt at_ [] takeToken (one role) := by
  refine .kind fun k here => .look looks_tokenStart fun start => ?_
  refine .look looks_tokenEnd fun stop => .idle Idle.moving.advance fun _ => ?_
  exact .addToken (ok k here).1 (ok k here).2

theorem makes_identifier (ok : becomes 0 (.token .identifier) 0 .identifier role = true)
    (possible : role.sure = false) : MakesAt at_ [] identifier (one role) := by
  refine .look looks_atIdentifier fun found =>
    decided (fun _ => makes_takeIdentifier ok) fun _ => ?_
  exact .idle (Idle.moving.reportHere _) fun _ => .pure (.missing possible .nil)

theorem makes_identifierName (ok : becomes 0 (.token .identifier) 0 .identifier role = true)
    (ok' : at_ .privateIdentifier →
      becomes 0 (.token .privateIdentifier) 0 .identifier role = true)
    (possible : role.sure = false) : MakesAt at_ [] identifierName (one role) := by
  refine .kind fun k here => decided (fun private_ => ?_) fun _ => ?_
  · exact makes_takeIdentifier (ok' (private_ ▸ here))
  refine decided (fun _ => makes_takeIdentifier ok) fun _ => ?_
  exact .idle (Idle.moving.reportHere _) fun _ => .pure (.missing possible .nil)

/-! ### Names of properties -/

theorem makes_computedName (hsub : MakesPhrases sub) :
    MakesAt at_ [] (computedName sub) (one (.of NodeKind.isPropertyName 0)) := by
  refine .look looks_tokenStart fun start => .idle Idle.moving.advance fun _ => ?_
  refine (MakesAt.within _ (makes_assignmentOrReport hsub)).call fun value => ?_
  refine .idle (Idle.moving.expect _) fun _ => ?_
  exact .add 0 (.flat .nil) (fun _ => rfl) rfl

theorem makes_propertyName (hsub : MakesPhrases sub) :
    MakesAt at_ [] (propertyName sub) (one (.of NodeKind.isPropertyName 0)) := by
  have literal : MakesAt IsLiteral [] takeLiteral (one (.of NodeKind.isPropertyName 0)) :=
    makes_takeLiteral fun l => by cases l <;> rfl
  refine .kind fun k _ => ?_
  split
  · exact literal.weaken fun k here => ⟨_, here⟩
  · exact literal.weaken fun k here => ⟨_, here⟩
  · exact literal.weaken fun k here => ⟨_, here⟩
  · exact makes_computedName hsub
  · exact makes_identifierName rfl (fun _ => rfl) rfl

end Parser

end PathGuard
