import PathGuard.Grammar.Phrase
import PathGuard.Proofs.Run.Noted
/-!
# Running two parsers alike

A parser of phrases is given some fuel, and a rule of the grammar is given a parser of phrases.
`RunsAt x ready at_ known act act' after` compares a rule `act` with the same rule `act'` given another
parser of phrases: where there is room for what `act` opens, both do the same, by the moves of a parser,
and come back either at the same token or with less of the text left. A parser that is `ready` has a
phrase to spare.

What is known on the way is how much of the text was left at a place, and how long the chains are that
begin with a part.
-/

namespace PathGuard

/-- The text that is parsed, how many phrases may be opened inside each other, and how deep a parser
is in the text. -/
structure Room where
  text : List Char
  fuel : Nat
  depth : Nat

namespace Room

/-- How many levels may still be opened. -/
def levels (x : Room) : Nat := maxDepth - x.depth

def deeper (x : Room) : Room := { x with depth := x.depth + 1 }

theorem levels_le (x : Room) : x.levels ≤ maxDepth := Nat.sub_le _ _

theorem levels_deeper {x : Room} (room : x.depth < maxDepth) : x.levels = x.deeper.levels + 1 := by
  unfold levels deeper
  dsimp only
  omega

end Room

/-- What is known when a parser goes on: that so much of the text is left at most, or less when a
token was passed since; and that the chains that begin with a part are within bounds. -/
inductive Known where
  | since (left : Nat) (moved : Bool)
  | low (child : Child) (right rest : Nat)

namespace Known

def Holds (s : ParserState) : Known → Prop
  | since left moved => s.lexer.first.rest.length + moved.toNat ≤ left
  | low child right rest => s.tree.Low child right rest

/-- The same behind a token. -/
def pass : Known → Known
  | since left _ => since left true
  | low child right rest => low child right rest

/-- What is known of a part that is not nested in its own kind. -/
def plain (child : Child) : List Known := [low child 0 0]

@[simp]
theorem pass_since (left : Nat) (moved : Bool) : (since left moved).pass = since left true := rfl

@[simp]
theorem pass_low (child : Child) (right rest : Nat) :
    (low child right rest).pass = low child right rest := rfl

variable {text : List Char} {s s' : ParserState} {p : Known} {P Q : List Known}

theorem Holds.forward (h : p.Holds s) (f : s.Forward text s') : p.Holds s' := by
  cases p with
  | since left moved => exact Nat.le_trans (Nat.add_le_add_right f.left _) h
  | low child right rest => exact Tree.Low.of_extends h f.tree

theorem Holds.pass (h : p.Holds s) (f : s.Forward text s')
    (shorter : s'.lexer.first.rest.length < s.lexer.first.rest.length) : p.pass.Holds s' := by
  cases p with
  | since left moved =>
    change s.lexer.first.rest.length + moved.toNat ≤ left at h
    change s'.lexer.first.rest.length + 1 ≤ left
    omega
  | low child right rest => exact h.forward f

def Gives (P : List Known) (q : Known) : Prop := ∀ s, (∀ p ∈ P, p.Holds s) → q.Holds s

theorem gives_mem {q : Known} (mem : q ∈ P) : Gives P q := fun _ holds => holds q mem

theorem gives_none (right rest : Nat) : Gives P (low none right rest) :=
  fun _ _ => Tree.low_none _ _ _

theorem gives_low {child : Child} {right rest right' rest' : Nat} (mem : low child right rest ∈ P)
    (first : right ≤ right') (second : rest ≤ rest') : Gives P (low child right' rest') :=
  fun _ holds => Tree.Low.mono (holds _ mem) first second

theorem gives_since {left : Nat} (mem : since left true ∈ P) (moved : Bool) :
    Gives P (since left moved) :=
  fun _ holds => Nat.le_trans (Nat.add_le_add_left moved.toNat_le _) (holds _ mem)

def Covers (P Q : List Known) : Prop := ∀ q ∈ Q, Gives P q

theorem Covers.subset (sub : Q ⊆ P) : Covers P Q := fun _ hq => gives_mem (sub hq)

theorem Covers.refl (P : List Known) : Covers P P := .subset (List.Subset.refl P)

theorem Covers.nil : Covers P [] := nofun

theorem Covers.cons {q : Known} (first : Gives P q) (rest : Covers P Q) : Covers P (q :: Q) := by
  rintro p (_ | ⟨_, hp⟩)
  · exact first
  · exact rest p hp

theorem Covers.one {q : Known} (first : Gives P q) : Covers P [q] := .cons first .nil

theorem Covers.of_pass (P : List Known) : Covers (P.map pass) P := by
  intro p hp
  have mem : p.pass ∈ P.map pass := List.mem_map_of_mem hp
  cases p with
  | since left moved => exact gives_since mem moved
  | low child right rest => exact gives_mem mem

theorem Covers.plain_none : Covers P (plain none) := .one (gives_none 0 0)

theorem Covers.of_plain {child : Child} {right rest : Nat} :
    Covers (plain child) [low child right rest] :=
  .one (gives_low (List.mem_singleton_self _) (Nat.zero_le _) (Nat.zero_le _))

theorem Covers.holds (h : Covers P Q) (holds : ∀ p ∈ P, p.Holds s) : ∀ q ∈ Q, q.Holds s :=
  fun q hq => h q hq s holds

end Known

namespace Parser

open Known ParserState

variable {α β σ : Type} {text : List Char} {s s' s'' : ParserState}

/-- Whether a parser may begin: there is room for what it opens. -/
structure Begins (x : Room) (ready : Bool) (P : List Known) (s : ParserState) : Prop where
  standing : s.Standing x.text
  depth : s.depth = x.depth
  deep : x.depth ≤ maxDepth
  enough : s.lexer.first.rest.length + x.levels + ready.toNat ≤ x.fuel
  holds : ∀ p ∈ P, p.Holds s

/-- How a parser comes back: at the same token, or with less of the text left. -/
structure Returns (s s' : ParserState) : Prop where
  moves : s.Moves s'
  depth : s'.depth = s.depth
  onward : s'.lexer = s.lexer ∨ s'.lexer.first.rest.length < s.lexer.first.rest.length

theorem Returns.refl (s : ParserState) : Returns s s := ⟨.refl, rfl, .inl rfl⟩

theorem Returns.trans (h : Returns s s') (h' : Returns s' s'') : Returns s s'' where
  moves := Relation.ReflTransGen.trans h.moves h'.moves
  depth := h'.depth.trans h.depth
  onward := by
    rcases h.onward with same | shorter
    · rw [← same]
      exact h'.onward
    · rcases h'.onward with same' | shorter'
      · exact .inr (same' ▸ shorter)
      · exact .inr (Nat.lt_trans shorter' shorter)

theorem Returns.of_move (m : Move s s') (lexer : s'.lexer = s.lexer) (depth : s'.depth = s.depth) :
    Returns s s' := ⟨.single m, depth, .inl lexer⟩

theorem Begins.later {x : Room} {ready : Bool} {P Q : List Known} (h : Begins x ready P s)
    (returns : Returns s s') (holds : ∀ q ∈ Q, q.Holds s') : Begins x ready Q s' where
  standing := (returns.moves.forward h.standing).standing
  depth := returns.depth.trans h.depth
  deep := h.deep
  enough := by
    have left := (returns.moves.forward h.standing).left
    have enough := h.enough
    omega
  holds := holds

theorem Begins.spare {x : Room} {ready : Bool} {P Q : List Known} (h : Begins x ready P s)
    (returns : Returns s s') (shorter : s'.lexer.first.rest.length < s.lexer.first.rest.length)
    (holds : ∀ q ∈ Q, q.Holds s') : Begins x true Q s' :=
  { h.later returns holds with
    enough := by
      have enough := h.enough
      rw [Bool.toNat_true]
      omega }

/-- From what is known, at a token that satisfies `at_`, two parsers do the same and then know more. -/
def RunsAt (x : Room) (ready : Bool) (at_ : Lexer → Prop) (P : List Known) (act act' : Parser α)
    (Q : α → List Known) : Prop :=
  ∀ s, Begins x ready P s → at_ s.lexer →
    act' s = act s ∧ Returns s (act s).2 ∧ ∀ q ∈ Q (act s).1, q.Holds (act s).2

abbrev Runs (x : Room) (ready : Bool) (P : List Known) (act act' : Parser α) (Q : α → List Known) :
    Prop := RunsAt x ready (fun _ => True) P act act' Q

/-- Whether two parsers do the same and pass a token. -/
def PassesAt (x : Room) (ready : Bool) (at_ : Lexer → Prop) (act act' : Parser α)
    (Q : α → List Known) : Prop :=
  ∀ n, RunsAt x ready at_ [.since n false] act act' fun a => .since n true :: Q a

namespace RunsAt

variable {x : Room} {ready : Bool} {at_ : Lexer → Prop} {P : List Known} {act act' : Parser α}
  {next next' : α → Parser β} {Q : α → List Known} {R : β → List Known}

/-! ### One after the other -/

theorem any (h : Runs x ready P act act' Q) : RunsAt x ready at_ P act act' Q :=
  fun s begins _ => h s begins trivial

theorem at' {at' : Lexer → Prop} (h : RunsAt x ready at_ P act act' Q)
    (imp : ∀ l, at' l → at_ l) : RunsAt x ready at' P act act' Q :=
  fun s begins here => h s begins (imp _ here)

theorem absurd (never : ∀ l, ¬at_ l) : RunsAt x ready at_ P act act' Q :=
  fun s _ here => (never s.lexer here).elim

theorem imp {Q' : α → List Known} (h : RunsAt x ready at_ P act act' Q)
    (covers : ∀ a, Covers (Q a) (Q' a)) : RunsAt x ready at_ P act act' Q' := by
  intro s begins here
  obtain ⟨same, returns, holds⟩ := h s begins here
  exact ⟨same, returns, (covers _).holds holds⟩

theorem given {P' : List Known} (h : RunsAt x ready at_ P act act' Q) (covers : Covers P' P) :
    RunsAt x ready at_ P' act act' Q :=
  fun s begins here => h s { begins with holds := covers.holds begins.holds } here

theorem pure {a : α} (covers : Covers P (Q a)) :
    RunsAt x ready at_ P (Pure.pure a) (Pure.pure a) Q :=
  fun s begins _ => ⟨rfl, .refl s, covers.holds begins.holds⟩

theorem onward (same : act' s = act s) (returns : Returns s (act s).2)
    (rest : next' (act s).1 (act s).2 = next (act s).1 (act s).2 ∧
      Returns (act s).2 (next (act s).1 (act s).2).2 ∧
      ∀ q ∈ R (next (act s).1 (act s).2).1, q.Holds (next (act s).1 (act s).2).2) :
    (act' >>= next') s = (act >>= next) s ∧ Returns s ((act >>= next) s).2 ∧
      ∀ q ∈ R ((act >>= next) s).1, q.Holds ((act >>= next) s).2 := by
  obtain ⟨same', returns', holds⟩ := rest
  refine ⟨?_, returns.trans returns', holds⟩
  change next' (act' s).1 (act' s).2 = next (act s).1 (act s).2
  rw [same, same']

theorem bind (h : RunsAt x ready at_ P act act' Q)
    (k : ∀ a, Runs x ready (Q a) (next a) (next' a) R) :
    RunsAt x ready at_ P (act >>= next) (act' >>= next') R := by
  intro s begins here
  obtain ⟨same, returns, holds⟩ := h s begins here
  exact onward same returns (k _ _ (begins.later returns holds) trivial)

theorem frame (Θ : List Known) (h : RunsAt x ready at_ P act act' Q) :
    RunsAt x ready at_ (Θ ++ P) act act' fun a => Θ ++ Q a := by
  intro s begins here
  obtain ⟨same, returns, holds⟩ := h s
    { begins with holds := fun p hp => begins.holds p (List.mem_append_right _ hp) } here
  refine ⟨same, returns, fun q hq => ?_⟩
  rcases List.mem_append.1 hq with old | new
  · exact (begins.holds q (List.mem_append_left _ old)).forward
      (returns.moves.forward begins.standing)
  · exact holds q new

theorem retain (h : RunsAt x ready at_ P act act' Q) :
    RunsAt x ready at_ P act act' fun a => P ++ Q a :=
  (h.frame P).given (.subset (List.append_subset.2 ⟨List.Subset.refl P, List.Subset.refl P⟩))

theorem keep (h : RunsAt x ready at_ P act act' Q)
    (k : ∀ a, Runs x ready (P ++ Q a) (next a) (next' a) R) :
    RunsAt x ready at_ P (act >>= next) (act' >>= next') R := h.retain.bind k

theorem call (h : RunsAt x ready at_ [] act act' Q)
    (k : ∀ a, Runs x ready (P ++ Q a) (next a) (next' a) R) :
    RunsAt x ready at_ P (act >>= next) (act' >>= next') R := (h.given .nil).keep k

theorem steady (h : RunsAt x ready at_ [] act act' fun _ => [])
    (k : ∀ a, Runs x ready P (next a) (next' a) R) :
    RunsAt x ready at_ P (act >>= next) (act' >>= next') R :=
  h.call fun a => (k a).given (by rw [List.append_nil]; exact .refl P)

theorem past (h : PassesAt x ready at_ act act' Q)
    (k : ∀ a, Runs x true (P.map Known.pass ++ Q a) (next a) (next' a) R) :
    RunsAt x ready at_ P (act >>= next) (act' >>= next') R := by
  intro s begins here
  obtain ⟨same, returns, holds⟩ := h s.lexer.first.rest.length s
    { begins with holds := by simp [Known.Holds] } here
  have shorter : (act s).2.lexer.first.rest.length < s.lexer.first.rest.length :=
    holds _ (List.mem_cons_self ..)
  have forward := returns.moves.forward begins.standing
  have known : ∀ q ∈ P.map Known.pass ++ Q (act s).1, q.Holds (act s).2 := by
    intro q hq
    rcases List.mem_append.1 hq with old | new
    · obtain ⟨p, hp, rfl⟩ := List.mem_map.1 old
      exact (begins.holds p hp).pass forward shorter
    · exact holds q (List.mem_cons_of_mem _ new)
  exact onward same returns (k _ _ (begins.spare returns shorter known) trivial)

theorem of_passes (h : PassesAt x ready at_ act act' Q) : RunsAt x ready at_ P act act' Q := by
  rw [← bind_pure act, ← bind_pure act']
  exact .past h fun a => .pure (.subset (List.subset_append_right _ _))

/-- A parser that may have passed a token. If it has not, it is known what the token is; if it has, the
current one begins behind that. -/
theorem fork (h : RunsAt x ready at_ P act act' Q)
    (stood : ∀ a, RunsAt x ready at_ (Q a) (next a) (next' a) R)
    (moved : ∀ a, RunsAt x true (fun l => ∃ l', at_ l' ∧ l'.first.offset < l.first.offset)
      (P.map Known.pass ++ Q a) (next a) (next' a) R) :
    RunsAt x ready at_ P (act >>= next) (act' >>= next') R := by
  intro s begins here
  obtain ⟨same, returns, holds⟩ := h s begins here
  have forward := returns.moves.forward begins.standing
  refine onward same returns ?_
  rcases returns.onward with unmoved | shorter
  · exact stood _ _ (begins.later returns holds) (unmoved ▸ here)
  · have behind := begins.standing.offset_lt forward.standing shorter
    refine moved _ _ (begins.spare returns shorter fun q hq => ?_) ⟨_, here, behind⟩
    rcases List.mem_append.1 hq with old | new
    · obtain ⟨p, hp, rfl⟩ := List.mem_map.1 old
      exact (begins.holds p hp).pass forward shorter
    · exact holds q new

theorem look (h : Looks act) (k : ∀ a, RunsAt x ready at_ P (next a) (next' a) R) :
    RunsAt x ready at_ P (act >>= next) (act >>= next') R := by
  intro s begins here
  have found := k (act s).1 s begins here
  change next' (act s).1 (act s).2 = next (act s).1 (act s).2 ∧
    Returns s (next (act s).1 (act s).2).2 ∧ _
  rw [h s]
  refine ⟨found.1, found.2.1, ?_⟩
  change ∀ q ∈ R (next (act s).1 (act s).2).1, q.Holds (next (act s).1 (act s).2).2
  rw [h s]
  exact found.2.2

-- Two parsers are judged at once, and both branch alike, so the laws for one parser do not apply.
theorem ite {c : Prop} [Decidable c] {yes no yes' no' : Parser α}
    (h : c → RunsAt x ready at_ P yes yes' Q) (h' : ¬c → RunsAt x ready at_ P no no' Q) :
    RunsAt x ready at_ P (if c then yes else no) (if c then yes' else no') Q := by
  split
  · next holds => exact h holds
  · next fails => exact h' fails

theorem known {a : α} (k : RunsAt x ready at_ P (next a) (next' a) R) :
    RunsAt x ready at_ P (Pure.pure a >>= next) (Pure.pure a >>= next') R := k

theorem merged {c : Prop} [Decidable c] {other other' : Parser α}
    (h : RunsAt x ready at_ P ((if c then act else other) >>= next)
      ((if c then act' else other') >>= next') R) :
    RunsAt x ready at_ P (if c then act >>= next else other >>= next)
      (if c then act' >>= next' else other' >>= next') R := by
  rwa [ite_bind, ite_bind] at h

theorem mergedWhen {c : Prop} [Decidable c] {act act' : Parser Unit} {join join' : Unit → Parser β}
    (h : RunsAt x ready at_ P ((if c then act else Pure.pure ()) >>= join)
      ((if c then act' else Pure.pure ()) >>= join') R) :
    RunsAt x ready at_ P (if c then act >>= join else join ())
      (if c then act' >>= join' else join' ()) R := by
  rwa [ite_bind, ite_bind] at h

theorem mergedUnless {c : Prop} [Decidable c] {act act' : Parser Unit} {join join' : Unit → Parser β}
    (h : RunsAt x ready at_ P ((if c then Pure.pure () else act) >>= join)
      ((if c then Pure.pure () else act') >>= join') R) :
    RunsAt x ready at_ P (if c then join () else act >>= join)
      (if c then join' () else act' >>= join') R := by
  rwa [ite_bind, ite_bind] at h

end RunsAt

end Parser

end PathGuard
