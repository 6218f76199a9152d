import PathGuard.Proofs.Run.Rules
import PathGuard.Proofs.Skip.Walk
/-!
# Parsing where nothing is noted

What a parser passes while it notes no problem, raw tokens can be walked over: it passes closing
brackets only where it has passed the opening ones, and it reads the brace behind a substitution
again where such a walk does. Only a regular expression is read by the parser and not by the walk, so
its raw tokens have to leave open what was open.

`SkipsAt text at_ opened act left` says so of a parser `act`: at a token that satisfies `at_`, where
`opened` was opened innermost, it leads to a token where `left` is open, whatever is open farther out.
-/

namespace PathGuard

open PathGuard.Parser (Opening)

namespace Lexer

/-- Whether a regular expression, read as raw tokens behind its slash, leaves open what was open. -/
def Balanced (l : Lexer) : Prop :=
  l.kind = .literal .regularExpression → ∀ opened, opened ≠ [] →
    Walk (scan { l with here := (readPiece l.first).stop }) opened l.scan opened

theorem balanced_of_leadsTo {l : Lexer} (tokens : Nat)
    (leads : l.scan.leadsTo tokens [] (scan { l with here := (readPiece l.first).stop }) = true) :
    l.Balanced :=
  fun _ _ within => walk_of_leadsTo leads within

end Lexer

namespace ParserState

open PathGuard.Parser

variable {text : List Char} {s s' s'' : ParserState}

/-! ### What is noted and read -/

/-- Whether a later state has all problems and readings, and noted no problem when it has no other. -/
structure Retains (s s' : ParserState) : Prop where
  problems : s.problems <:+ s'.problems
  readings : s.readings <:+ s'.readings
  last : s'.problems = s.problems → s'.lastProblem = s.lastProblem

theorem Retains.refl (s : ParserState) : s.Retains s :=
  ⟨List.suffix_refl _, List.suffix_refl _, fun _ => rfl⟩

theorem Retains.silent (h : s.Retains s') (h' : s'.Retains s'')
    (same : s''.problems = s.problems) :
    s'.problems = s.problems ∧ s''.problems = s'.problems := by
  have later := h'.problems
  rw [same] at later
  have before := later.eq_of_length_le h.problems.length_le
  exact ⟨before, same.trans before.symm⟩

theorem Retains.trans (h : s.Retains s') (h' : s'.Retains s'') : s.Retains s'' where
  problems := h.problems.trans h'.problems
  readings := h.readings.trans h'.readings
  last := fun same => by
    obtain ⟨before, later⟩ := h.silent h' same
    exact (h'.last later).trans (h.last before)

/-- Whether no problem was noted up to a later state, and every regular expression that was read on
the way is balanced. -/
structure Quiet (s s' : ParserState) : Prop where
  problems : s'.problems = s.problems
  balanced : ∃ new, s'.readings = new ++ s.readings ∧ ∀ l ∈ new, l.Balanced

theorem Quiet.split (h : s.Retains s') (h' : s'.Retains s'') (quiet : s.Quiet s'') :
    s.Quiet s' ∧ s'.Quiet s'' := by
  obtain ⟨before, later⟩ := h.silent h' quiet.problems
  obtain ⟨new, whole, balanced⟩ := quiet.balanced
  obtain ⟨first, firstRead⟩ := h.readings
  obtain ⟨second, secondRead⟩ := h'.readings
  obtain rfl : new = second ++ first := by
    rw [← List.append_left_inj s.readings, ← whole, ← secondRead, ← firstRead, List.append_assoc]
  constructor
  · exact ⟨before, first, firstRead.symm, fun l hl => balanced l (List.mem_append_right _ hl)⟩
  · exact ⟨later, second, secondRead.symm, fun l hl => balanced l (List.mem_append_left _ hl)⟩

/-- Whether a parser stands in a text and any problem at the current token would be noted. -/
structure Alert (text : List Char) (s : ParserState) : Prop where
  sits : s.lexer.Sits text
  before : ∀ n, s.lastProblem = some n → n < s.lexer.first.offset

theorem Alert.later (h : s.Alert text) (last : s'.lastProblem = s.lastProblem)
    (sits : s'.lexer.Sits text) (reaches : s.lexer.first.Reaches s'.lexer.first) : s'.Alert text where
  sits := sits
  before := fun n noted => Nat.lt_of_lt_of_le (h.before n (last ▸ noted)) reaches.offset_le

end ParserState

namespace Parser

open ParserState

variable {α β σ : Type} {text : List Char} {at_ : Lexer → Prop} {s : ParserState}
  {opened opened' : List Opening}

/-! ### Parsers that take nothing back -/

/-- Whether a parser retains what was noted and read. -/
def Notes (act : Parser α) : Prop := ∀ s : ParserState, s.Retains (act s).2

namespace Notes

variable {act : Parser α} {next : α → Parser β}

theorem pure (a : α) : Notes (Pure.pure a) := Retains.refl

theorem bind (h : Notes act) (k : ∀ a, Notes (next a)) : Notes (act >>= next) :=
  fun s => (h s).trans (k (act s).1 (act s).2)

theorem looks (h : Looks act) : Notes act := fun s => by
  rw [h s]
  exact .refl s

theorem closed : Closed Notes := ⟨Notes.pure, Notes.bind⟩

theorem moving : Moving Notes where
  toClosed := closed
  kind := .looks looks_kind
  tokenStart := .looks looks_tokenStart
  tokenEnd := .looks looks_tokenEnd
  afterLineBreak := .looks looks_afterLineBreak
  unterminated := .looks looks_unterminated
  report := by
    intro start length cause s
    change s.Retains (if s.lastProblem = some start then s else _)
    split
    · exact .refl s
    · exact ⟨List.suffix_cons _ _, List.suffix_refl _, fun same => absurd same (List.cons_ne_self _ _)⟩
  recordReading := fun _ => ⟨List.suffix_refl _, List.suffix_cons _ _, fun _ => rfl⟩
  pass := fun _ => ⟨List.suffix_refl _, List.suffix_refl _, fun _ => rfl⟩

theorem rescan (change : Lexer → Lexer) (cause : SyntaxError) :
    Notes (Parser.rescan change cause) :=
  moving.rescan (fun _ => ⟨List.suffix_refl _, List.suffix_refl _, fun _ => rfl⟩) cause

theorem within (change : Context → Context) (h : Notes act) : Notes (Parser.within change act) :=
  fun s =>
    let inside := h { s with context := change s.context }
    ⟨inside.problems, inside.readings, inside.last⟩

theorem growing (grow : Tree → NodeId × Tree) : Notes (Parser.growing grow) :=
  fun _ => ⟨List.suffix_refl _, List.suffix_refl _, fun _ => rfl⟩

end Notes

/-! ### Parsers that raw tokens can be walked along with -/

/-- Whether raw tokens can be walked along with a parser. Where it is quiet, what is open then is
known of each answer; an answer for which nothing is said is never given. -/
structure SkipsAt (text : List Char) (at_ : Lexer → Prop) (opened : List Opening) (act : Parser α)
    (left : α → Option (List Opening)) : Prop where
  notes : Notes act
  walks : ∀ s : ParserState, s.Alert text → at_ s.lexer → s.Quiet (act s).2 →
    ∃ opened', left (act s).1 = some opened' ∧
      ∀ outer, outer ≠ [] → Walk s.lexer (opened ++ outer) (act s).2.lexer (opened' ++ outer)

abbrev Skips (text : List Char) (opened : List Opening) (act : Parser α)
    (left : α → Option (List Opening)) : Prop := SkipsAt text (fun _ => True) opened act left

/-- Whatever the answer is, nothing is open that was not open before. -/
def closed (_ : α) : Option (List Opening) := some []

/-- There is an answer, and nothing is open that was not open before. -/
def found : Child → Option (List Opening)
  | some _ => some []
  | none => none

namespace SkipsAt

variable {act : Parser α} {left : α → Option (List Opening)}

theorem walk (h : SkipsAt text at_ opened act left) (alert : s.Alert text) (here : at_ s.lexer)
    (quiet : s.Quiet (act s).2) (answered : left (act s).1 = some opened') {outer : List Opening}
    (within : outer ≠ []) : Walk s.lexer (opened ++ outer) (act s).2.lexer (opened' ++ outer) := by
  obtain ⟨o, answered', walk⟩ := h.walks s alert here quiet
  obtain rfl := Option.some.inj (answered'.symm.trans answered)
  exact walk outer within

theorem alert (h : SkipsAt text at_ opened act left) (alert : s.Alert text) (here : at_ s.lexer)
    (quiet : s.Quiet (act s).2) :
    (act s).2.Alert text ∧ s.lexer.first.Reaches (act s).2.lexer.first := by
  obtain ⟨opened', -, walk⟩ := h.walks s alert here quiet
  obtain ⟨sits, reaches⟩ := (walk [.paren] (List.cons_ne_nil _ _)).forward alert.sits
  exact ⟨alert.later ((h.notes s).last quiet.problems) sits reaches, reaches⟩

end SkipsAt

end Parser

end PathGuard
