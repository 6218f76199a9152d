import PathGuard.Proofs.Skip.Quiet
/-!
# Laws of skipping

What the operations on the state pass, and how skipping goes on from one parser to the next. A parser
that comes across a problem is not quiet, so all that matters behind it is that nothing is taken back.
-/

namespace PathGuard.Parser

open ParserState

variable {α β σ : Type} {text : List Char} {at_ : Lexer → Prop} {opened opened' : List Opening}
  {act : Parser α} {next : α → Parser β} {left : α → Option (List Opening)}
  {left' : β → Option (List Opening)}

theorem problems_reportHere {s : ParserState} (cause : SyntaxError)
    (fresh : ∀ n, s.lastProblem = some n → n < s.lexer.first.offset) :
    (reportHere cause s).2.problems ≠ s.problems := by
  change (if s.lastProblem = some s.lexer.first.offset then s else _ : ParserState).problems ≠ _
  rw [if_neg fun noted => Nat.lt_irrefl _ (fresh _ noted)]
  exact List.cons_ne_self _ _

namespace SkipsAt

/-! ### One after the other -/

theorem any (h : Skips text opened act left) : SkipsAt text at_ opened act left :=
  ⟨h.notes, fun s alert _ => h.walks s alert trivial⟩

theorem absurd (notes : Notes act) (never : ∀ l, ¬at_ l) : SkipsAt text at_ opened act left :=
  ⟨notes, fun s _ here => (never s.lexer here).elim⟩

theorem at' {at' : Lexer → Prop} (h : SkipsAt text at_ opened act left) (imp : ∀ l, at' l → at_ l) :
    SkipsAt text at' opened act left :=
  ⟨h.notes, fun s alert here => h.walks s alert (imp _ here)⟩

theorem imp {left₁ : α → Option (List Opening)} (h : SkipsAt text at_ opened act left)
    (sub : ∀ a o, left a = some o → left₁ a = some o) : SkipsAt text at_ opened act left₁ where
  notes := h.notes
  walks := fun s alert here quiet => by
    obtain ⟨o, answered, walk⟩ := h.walks s alert here quiet
    exact ⟨o, sub _ o answered, walk⟩

theorem frame (outer : List Opening) (h : SkipsAt text at_ opened act left) :
    SkipsAt text at_ (opened ++ outer) act fun a => (left a).map (· ++ outer) where
  notes := h.notes
  walks := fun s alert here quiet => by
    obtain ⟨o, answered, walk⟩ := h.walks s alert here quiet
    refine ⟨o ++ outer, by rw [answered]; rfl, fun farther within => ?_⟩
    rw [List.append_assoc, List.append_assoc]
    exact walk (outer ++ farther) (List.append_ne_nil_of_right_ne_nil _ within)

theorem pure {a : α} (answered : left a = some opened) :
    SkipsAt text at_ opened (Pure.pure a) left :=
  ⟨.pure a, fun _ _ _ _ => ⟨opened, answered, fun _ _ => .refl _ _⟩⟩

theorem bind (h : SkipsAt text at_ opened act left) (notes : ∀ a, Notes (next a))
    (k : ∀ a o, left a = some o → Skips text o (next a) left') :
    SkipsAt text at_ opened (act >>= next) left' where
  notes := h.notes.bind notes
  walks := fun s alert here quiet => by
    obtain ⟨first, later⟩ := quiet.split (h.notes s) (notes _ (act s).2)
    obtain ⟨o, answered, walk⟩ := h.walks s alert here first
    have alert' := (h.alert alert here first).1
    obtain ⟨o', answered', walk'⟩ := (k _ o answered).walks (act s).2 alert' trivial later
    exact ⟨o', answered', fun outer within => (walk outer within).trans (walk' outer within)⟩

theorem step (h : SkipsAt text at_ opened act fun _ => some opened')
    (k : ∀ a, Skips text opened' (next a) left') :
    SkipsAt text at_ opened (act >>= next) left' := by
  refine .bind h (fun a => (k a).notes) fun a o answered => ?_
  obtain rfl := Option.some.inj answered
  exact k a

theorem call (h : SkipsAt text at_ [] act closed) (k : ∀ a, Skips text opened (next a) left') :
    SkipsAt text at_ opened (act >>= next) left' := .step (h.frame opened) k

theorem present {act : Parser Child} {next : Child → Parser β} (h : SkipsAt text at_ [] act found)
    (none_ : Notes (next none)) (k : ∀ i, Skips text opened (next (some i)) left') :
    SkipsAt text at_ opened (act >>= next) left' := by
  refine .bind (h.frame opened) (fun c => ?_) fun c o answered => ?_
  · cases c with
    | none => exact none_
    | some i => exact (k i).notes
  · cases c with
    | none => cases answered
    | some i =>
      obtain rfl := Option.some.inj answered
      exact k i

/-! ### Looking around -/

theorem glance (told : α → Lexer → Prop) (looks : Looks act) (tells : ∀ s, told (act s).1 s.lexer)
    (k : ∀ a, SkipsAt text (fun l => at_ l ∧ told a l) opened (next a) left') :
    SkipsAt text at_ opened (act >>= next) left' := by
  have answered (s : ParserState) : (act >>= next) s = next (act s).1 s :=
    run_bind (Prod.ext rfl (looks s))
  refine ⟨(Notes.looks looks).bind fun a => (k a).notes, fun s alert here quiet => ?_⟩
  rw [answered] at quiet ⊢
  exact (k _).walks s alert ⟨here, tells s⟩ quiet

theorem look (looks : Looks act) (k : ∀ a, SkipsAt text at_ opened (next a) left') :
    SkipsAt text at_ opened (act >>= next) left' :=
  .glance (fun _ _ => True) looks (fun _ => trivial) fun a => (k a).at' fun _ here => here.1

theorem last (looks : Looks act) : SkipsAt text at_ [] act closed := by
  rw [← bind_pure act]
  exact .look looks fun _ => .pure rfl

theorem kind {next : TokenKind → Parser β}
    (k : ∀ found, SkipsAt text (fun l => at_ l ∧ l.kind = found) opened (next found) left') :
    SkipsAt text at_ opened (Parser.kind >>= next) left' :=
  .glance (fun found l => l.kind = found) looks_kind (fun _ => rfl) k

theorem ask {act : Parser Bool} {next : Bool → Parser β} {told : Lexer → Prop} (looks : Looks act)
    (tells : ∀ s, (act s).1 = true → told s.lexer)
    (yes : SkipsAt text (fun l => at_ l ∧ told l) opened (next true) left')
    (no : SkipsAt text at_ opened (next false) left') :
    SkipsAt text at_ opened (act >>= next) left' := by
  refine .glance (fun found l => found = true → told l) looks tells fun found => ?_
  cases found with
  | true => exact yes.at' fun l here => ⟨here.1, here.2 rfl⟩
  | false => exact no.at' fun l here => here.1

theorem isAt {wanted : TokenKind} {next : Bool → Parser β}
    (yes : SkipsAt text (fun l => at_ l ∧ l.kind = wanted) opened (next true) left')
    (no : SkipsAt text (fun l => at_ l ∧ l.kind ≠ wanted) opened (next false) left') :
    SkipsAt text at_ opened (Parser.isAt wanted >>= next) left' := by
  refine .glance (fun found l => found = (l.kind == wanted)) (looks_isAt _) (fun _ => rfl)
    fun found => ?_
  cases found with
  | true => exact yes.at' fun l here => ⟨here.1, eq_of_beq here.2.symm⟩
  | false => exact no.at' fun l here => ⟨here.1, ne_of_beq_false here.2.symm⟩

theorem still (h : SkipsAt text at_ [] act closed) (unread : ∀ s, (act s).2.lexer = s.lexer)
    (k : ∀ a, SkipsAt text at_ opened (next a) left') :
    SkipsAt text at_ opened (act >>= next) left' where
  notes := h.notes.bind fun a => (k a).notes
  walks := fun s alert here quiet => by
    obtain ⟨first, later⟩ := quiet.split (h.notes s) ((k _).notes (act s).2)
    have walk := (k (act s).1).walks (act s).2 (h.alert alert here first).1
    rw [unread] at walk
    exact walk here later

/-! ### Problems -/

theorem report {cause : SyntaxError} {next : Unit → Parser β} (rest : Notes (next ())) :
    SkipsAt text at_ opened (reportHere cause >>= next) left' where
  notes := (Notes.moving.reportHere cause).bind fun _ => rest
  walks := fun s alert _ quiet =>
    (problems_reportHere cause alert.before
      (quiet.split (Notes.moving.reportHere cause s) (rest _)).1.problems).elim

end SkipsAt

theorem skips_reportHere {left : Unit → Option (List Opening)} (cause : SyntaxError) :
    SkipsAt text at_ opened (reportHere cause) left := by
  rw [← bind_pure (reportHere cause)]
  exact .report (.pure ())

/-! ### Tokens -/

theorem lexer_advance (s : ParserState) : (advance s).2.lexer = s.lexer.scan := by
  rw [run_advance]
  cases found : tokenProblem? s.readNext.lexer.kind s.readNext.lexer.flags.unterminated with
  | none =>
    rw [noteToken_none found]
    rfl
  | some cause =>
    rw [noteToken_some found]
    exact report_lexer _ _ cause _

theorem skips_advance (turns : ∀ l, at_ l → l.kind.Turns opened opened') :
    SkipsAt text at_ opened advance fun _ => some opened' where
  notes := Notes.moving.advance
  walks := fun s _ here _ => by
    refine ⟨opened', rfl, fun outer within => .turn ((turns _ here).append outer) ?_ ?_⟩
    · exact List.append_ne_nil_of_right_ne_nil _ within
    · rw [lexer_advance]
      exact .refl _ _

namespace SkipsAt

theorem advance {next : Unit → Parser β} (turns : ∀ l, at_ l → l.kind.Turns opened opened')
    (k : Skips text opened' (next ()) left') :
    SkipsAt text at_ opened (Parser.advance >>= next) left' :=
  .step (skips_advance turns) fun _ => k

theorem advanceLoose {next : Unit → Parser β} (loose : ∀ l, at_ l → l.IsLoose)
    (k : Skips text opened (next ()) left') :
    SkipsAt text at_ opened (Parser.advance >>= next) left' :=
  .advance (fun l here => .loose (loose l here)) k

theorem accept {wanted : TokenKind} {next : Bool → Parser β} (turns : wanted.Turns opened opened')
    (yes : Skips text opened' (next true) left')
    (no : SkipsAt text (fun l => at_ l ∧ l.kind ≠ wanted) opened (next false) left') :
    SkipsAt text at_ opened (Parser.accept wanted >>= next) left' := by
  unfold Parser.accept
  rw [bind_assoc]
  refine .isAt ?_ ?_
  · rw [if_pos rfl, bind_assoc]
    exact .advance (fun l here => here.2 ▸ turns) (atOnce yes)
  · rw [if_neg Bool.false_ne_true]
    exact atOnce no

theorem acceptMark {p : Punctuator} {next : Bool → Parser β}
    (turns : (TokenKind.mark p).Turns opened opened') (yes : Skips text opened' (next true) left')
    (no : SkipsAt text (fun l => at_ l ∧ l.kind ≠ .mark p) opened (next false) left') :
    SkipsAt text at_ opened (Parser.acceptMark p >>= next) left' := accept turns yes no

theorem acceptWord {w : Keyword} {next : Bool → Parser β} (yes : Skips text opened (next true) left')
    (no : SkipsAt text (fun l => at_ l ∧ l.kind ≠ .word w) opened (next false) left') :
    SkipsAt text at_ opened (Parser.acceptWord w >>= next) left' := accept (.loose rfl) yes no

theorem expect {wanted : TokenKind} {next : Unit → Parser β} (turns : wanted.Turns opened opened')
    (k : Skips text opened' (next ()) left') :
    SkipsAt text at_ opened (Parser.expect wanted >>= next) left' := by
  unfold Parser.expect
  rw [bind_assoc]
  refine .accept turns ?_ ?_
  · rw [if_pos rfl]
    exact atOnce k
  · rw [if_neg Bool.false_ne_true]
    exact .report k.notes

theorem expectMark {p : Punctuator} {next : Unit → Parser β}
    (turns : (TokenKind.mark p).Turns opened opened') (k : Skips text opened' (next ()) left') :
    SkipsAt text at_ opened (Parser.expectMark p >>= next) left' := expect turns k

theorem expectWord {w : Keyword} {next : Unit → Parser β} (k : Skips text opened (next ()) left') :
    SkipsAt text at_ opened (Parser.expectWord w >>= next) left' := expect (.loose rfl) k

theorem expectMissing {wanted : TokenKind} {next : Unit → Parser β}
    (other : ∀ l, at_ l → l.kind ≠ wanted) (rest : Notes (next ())) :
    SkipsAt text at_ opened (Parser.expect wanted >>= next) left' := by
  unfold Parser.expect Parser.accept
  rw [bind_assoc, bind_assoc]
  refine .isAt (.absurd ?_ fun l here => other l here.1 here.2) (.report rest)
  exact Notes.moving.advance.bind fun _ => rest

end SkipsAt

theorem skips_accept {wanted : TokenKind} (loose : wanted.isLoose = true) :
    SkipsAt text at_ [] (accept wanted) closed := by
  rw [← bind_pure (accept wanted)]
  exact .accept (.loose loose) (.pure rfl) (.pure rfl)

theorem skips_acceptMark {p : Punctuator} (loose : (TokenKind.mark p).isLoose = true) :
    SkipsAt text at_ [] (acceptMark p) closed := skips_accept loose

theorem skips_acceptWord (w : Keyword) : SkipsAt text at_ [] (acceptWord w) closed := skips_accept rfl

theorem skips_expectMark {p : Punctuator} (loose : (TokenKind.mark p).isLoose = true) :
    SkipsAt text at_ [] (expectMark p) closed := by
  rw [← bind_pure (expectMark p)]
  exact .expectMark (.loose loose) (.pure rfl)

theorem skips_endStatement : SkipsAt text at_ [] endStatement closed := by
  refine .acceptMark (.loose rfl) (.pure rfl) ?_
  exact .look looks_atStatementEnd fun ended => decided (fun _ => .pure rfl) fun _ =>
    skips_expectMark rfl

namespace SkipsAt

/-! ### Context, depth and repetition -/

theorem within (change : Context → Context) (h : SkipsAt text at_ opened act left) :
    SkipsAt text at_ opened (Parser.within change act) left where
  notes := h.notes.within change
  walks := fun s alert here quiet =>
    h.walks { s with context := change s.context } ⟨alert.sits, alert.before⟩ here
      ⟨quiet.problems, quiet.balanced⟩

/-- At the greatest depth a problem is noted. -/
theorem nested {act : Parser Child} {left : Child → Option (List Opening)}
    (h : SkipsAt text at_ opened act left) : SkipsAt text at_ opened (Parser.nested act) left := by
  have skip : Notes skipAsMissing :=
    (Notes.looks (looks_isAt _)).bind fun _ =>
      either (.pure none) (Notes.moving.advance.bind fun _ => .pure none)
  have tooDeep :
      SkipsAt text at_ opened (reportHere .nestingTooDeep >>= fun _ => skipAsMissing) left :=
    .report skip
  constructor
  · intro s
    by_cases deepest : maxDepth ≤ s.depth
    · rw [run_nested_deepest deepest]
      exact tooDeep.notes s
    · rw [run_nested_deeper deepest]
      have inside := h.notes s.deeper
      exact ⟨inside.problems, inside.readings, inside.last⟩
  · intro s alert here quiet
    by_cases deepest : maxDepth ≤ s.depth
    · rw [run_nested_deepest deepest] at quiet ⊢
      exact tooDeep.walks s alert here quiet
    · rw [run_nested_deeper deepest] at quiet ⊢
      exact h.walks s.deeper ⟨alert.sits, alert.before⟩ here
        ⟨quiet.problems, quiet.balanced⟩

theorem repeating {step : σ → Parser (ForInStep σ)} (h : ∀ acc, Skips text [] (step acc) closed)
    (acc : σ) : SkipsAt text at_ [] (Parser.repeating step acc) closed := by
  have bounded (bound : List Char) (acc : σ) : Skips text [] (repeatWithin step bound acc) closed :=
    repeatWithin_induction (motive := fun _ act => Skips text [] act closed) (fun _ => .pure rfl)
      (fun acc _ later => (h acc).call later) bound acc
  exact .look looks_textLeft fun text => (bounded text acc).any

/-! ### Nodes -/

variable {k : NodeKind} {flags start stop : Nat} {r : Record} {left : Child → Option (List Opening)}

theorem growing {grow : Tree → NodeId × Tree} (answered : ∀ i, left (some i) = some opened) :
    SkipsAt text at_ opened (Parser.growing grow) left :=
  ⟨.growing grow, fun _ _ _ _ => ⟨opened, answered _, fun _ _ => .refl _ _⟩⟩

theorem addToken (answered : ∀ i, left (some i) = some opened) :
    SkipsAt text at_ opened (Parser.addToken k start stop) left := growing answered

theorem addSpanned (answered : ∀ i, left (some i) = some opened) :
    SkipsAt text at_ opened (Parser.addSpanned k start stop r) left := growing answered

theorem addFlagged (answered : ∀ i, left (some i) = some opened) :
    SkipsAt text at_ opened (Parser.addFlagged k flags start r) left :=
  .look looks_previousEnd fun _ => growing answered

theorem add (answered : ∀ i, left (some i) = some opened) :
    SkipsAt text at_ opened (Parser.add k start r) left := addFlagged answered

theorem addBare (answered : ∀ i, left (some i) = some opened) :
    SkipsAt text at_ opened (Parser.addBare k start) left :=
  .look looks_previousEnd fun _ => growing answered

theorem of_found {act : Parser Child} (h : SkipsAt text at_ opened act found) :
    SkipsAt text at_ opened act closed := by
  refine h.imp fun c o answered => ?_
  cases c with
  | none => cases answered
  | some i => exact answered

end SkipsAt

end PathGuard.Parser
