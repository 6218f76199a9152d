import PathGuard.Proofs.Token.Slices
/-!
# Any use of a lexer

A session asks a lexer for one thing after another, in any order: for the next token, for another
reading of the current one, to keep its state, or to go back to a state that was kept. No cut of the
text fails on the way. If the rest of a template is only asked for at a brace that closes, the
current token always lies in order within the text, between ends of characters, and no other reading
of it stops before its first one.
-/

namespace PathGuard

/-- What may be asked of a lexer. States that were saved are counted from the first one on. -/
inductive Request where
  | scan | rescanSlash | rescanTemplate | save
  | restore (index : Nat)
  deriving DecidableEq, Repr

structure Session where
  lexer : Lexer
  saved : List Lexer

namespace Session

def start (text : List Char) (skipTrivia : Bool) : Session := ⟨.start text skipTrivia, []⟩

def step (s : Session) : Request → Session
  | .scan => { s with lexer := s.lexer.scan }
  | .rescanSlash => { s with lexer := s.lexer.rescanSlash }
  | .rescanTemplate => { s with lexer := s.lexer.rescanTemplate }
  | .save => { s with saved := s.saved ++ [s.lexer] }
  | .restore index => { s with lexer := s.saved[index]?.getD s.lexer }

def run (s : Session) (requests : List Request) : Session := requests.foldl step s

/-- A step in which every part of the text is cut out of the whole text. Only moving on makes such
cuts: another reading of a token looks up one character after the other. -/
def step? (s : Session) : Request → Option Session
  | .scan => s.lexer.scan?.map fun l => { s with lexer := l }
  | request => some (s.step request)

def run? (s : Session) (requests : List Request) : Option Session := requests.foldlM step? s

/-- Whether the rest of a template is only asked for at a brace that closes. -/
def BracesOnly : Session → List Request → Prop
  | _, [] => True
  | s, request :: requests =>
    (request = .rescanTemplate → s.lexer.kind = .mark .closeBrace) ∧
      BracesOnly (s.step request) requests

instance decidableBracesOnly : (s : Session) → (requests : List Request) →
    Decidable (s.BracesOnly requests)
  | _, [] => .isTrue trivial
  | s, request :: requests =>
    have := decidableBracesOnly (s.step request) requests
    inferInstanceAs (Decidable (_ ∧ _))

/-! ### What every state of a lexer satisfies -/

def All (I : Lexer → Prop) (s : Session) : Prop := I s.lexer ∧ ∀ l ∈ s.saved, I l

variable {I : Lexer → Prop} {s : Session}

theorem All.step (h : s.All I) {request : Request} (scan : ∀ l, I l → I l.scan)
    (slash : ∀ l, I l → I l.rescanSlash)
    (template : request = .rescanTemplate → I s.lexer.rescanTemplate) :
    (s.step request).All I := by
  obtain ⟨now, saved⟩ := h
  cases request with
  | scan => exact ⟨scan _ now, saved⟩
  | rescanSlash => exact ⟨slash _ now, saved⟩
  | rescanTemplate => exact ⟨template rfl, saved⟩
  | save =>
    refine ⟨now, fun l member => ?_⟩
    rcases List.mem_append.1 member with member | same
    · exact saved l member
    · exact List.mem_singleton.1 same ▸ now
  | restore index =>
    refine ⟨?_, saved⟩
    change I (s.saved[index]?.getD s.lexer)
    cases found : s.saved[index]? with
    | none => exact now
    | some l => exact saved l (List.mem_of_getElem? found)

theorem BracesOnly.shorter {before requests : List Request} (h : s.BracesOnly requests)
    (first : before <+: requests) : s.BracesOnly before := by
  induction requests generalizing s before with
  | nil =>
    rw [List.prefix_nil.1 first]
    trivial
  | cons request requests ih =>
    cases before with
    | nil => trivial
    | cons asked before =>
      obtain ⟨rfl, later⟩ := List.cons_prefix_cons.1 first
      exact ⟨h.1, ih h.2 later⟩

end Session

namespace Lexer

variable {text : List Char} {l : Lexer}

theorem rescanSlash_cases (l : Lexer) : l.rescanSlash = l ∨
    ∃ here value flags, l.first.Reaches here ∧
      l.rescanSlash =
        { l with
          here := here
          kind := .literal .regularExpression
          value := value
          flags := flags } := by
  unfold Lexer.rescanSlash
  split
  · have body := reaches_regularExpressionEnd false l.first.next.offset l.first.next.rest
    have flagged := body.trans (reaches_skipWhile isIdentifierPart _)
    exact .inr ⟨_, _, _, (Cursor.reaches_next l.first).trans flagged, rfl⟩
  · exact .inl rfl

/-! ### No cut fails -/

/-- Whether the token begins and the reading goes on at places that were sought in the text. -/
structure Seated (text : List Char) (l : Lexer) : Prop where
  text_eq : l.text = text
  first : l.first.Seated text
  here : l.here.Seated text

theorem seated_start (text : List Char) (skipTrivia : Bool) :
    (start text skipTrivia).Seated text :=
  ⟨rfl, Cursor.seated_start text, Cursor.seated_start text⟩

namespace Seated

theorem scan (h : l.Seated text) : l.scan.Seated text := by
  obtain ⟨behind, -, stop⟩ := scan_reads l
  have first := h.here.later behind
  exact ⟨h.text_eq, first, stop ▸ first.later (reaches_readPiece _)⟩

theorem rescanSlash (h : l.Seated text) : l.rescanSlash.Seated text := by
  obtain same | ⟨here, value, flags, later, read⟩ := rescanSlash_cases l
  · rwa [same]
  · rw [read]
    exact ⟨h.text_eq, h.first, h.first.later later⟩

theorem rescanTemplate (h : l.Seated text) : l.rescanTemplate.Seated text := by
  have second : (l.first.nextByte l.text).Seated text := by
    rw [h.text_eq]
    exact h.first.nextByte
  exact ⟨h.text_eq, h.first, second.later (reaches_readTemplate false _)⟩

end Seated

/-! ### Tokens that lie in order -/

/-- Whether the current token of a lexer lies in order within the text, between ends of characters,
and other readings of it do not stop before this one. -/
structure InRange (text : List Char) (l : Lexer) : Prop where
  fullStart_le : l.fullStart ≤ l.first.offset
  first_le : l.first.offset ≤ l.here.offset
  here_le : l.here.offset ≤ byteLength text
  fullStart : IsBoundary text l.fullStart
  first : IsBoundary text l.first.offset
  here : IsBoundary text l.here.offset
  tokenText : sliceBytes text l.first.offset l.here.offset = some l.tokenText.toList
  rescanSlash : l.here.offset ≤ l.rescanSlash.here.offset
  rescanTemplate : l.kind = .mark .closeBrace → l.here.offset ≤ l.rescanTemplate.here.offset

/-- Whether a lexer came to its token by reading the text. A token that is a mark was read as one:
other readings give literals. -/
structure Standing (text : List Char) (l : Lexer) : Prop where
  text_eq : l.text = text
  first : ∃ p, (Cursor.start text).Reaches p ∧ p.offset = l.fullStart ∧ p.Reaches l.first
  here : l.first.Reaches l.here
  mark : ∀ p, l.kind = .mark p →
    (readPiece l.first).kind = .mark p ∧ (readPiece l.first).stop = l.here

theorem standing_start (text : List Char) (skipTrivia : Bool) :
    (start text skipTrivia).Standing text where
  text_eq := rfl
  first := ⟨_, .refl _, rfl, .refl _⟩
  here := .refl _
  mark := fun _ mark => by cases mark

namespace Standing

theorem reaches_first (h : l.Standing text) : (Cursor.start text).Reaches l.first := by
  obtain ⟨p, there, -, later⟩ := h.first
  exact there.trans later

theorem scan (h : l.Standing text) : l.scan.Standing text := by
  obtain ⟨behind, kind, stop⟩ := scan_reads l
  exact {
    text_eq := h.text_eq
    first := ⟨l.here, h.reaches_first.trans h.here, rfl, behind⟩
    here := stop ▸ reaches_readPiece _
    mark := fun p mark => ⟨kind.symm.trans mark, stop.symm⟩ }

theorem rescanSlash (h : l.Standing text) : l.rescanSlash.Standing text := by
  obtain same | ⟨here, value, flags, later, read⟩ := rescanSlash_cases l
  · rwa [same]
  · rw [read]
    exact ⟨h.text_eq, h.first, later, fun _ mark => by cases mark⟩

theorem nextByte (h : l.Standing text) (brace : l.kind = .mark .closeBrace) :
    l.first.nextByte l.text = l.first.next :=
  (Cursor.nextByte_of_closeBrace l.text (h.mark _ brace).1).1

theorem rescanTemplate (h : l.Standing text) (brace : l.kind = .mark .closeBrace) :
    l.rescanTemplate.Standing text := by
  have stop : l.first.Reaches (readTemplate false (l.first.nextByte l.text)).stop := by
    rw [h.nextByte brace]
    exact (Cursor.reaches_next _).trans (reaches_readTemplate false _)
  exact ⟨h.text_eq, h.first, stop, fun _ mark => by cases mark⟩

theorem here_reaches_rescanSlash (h : l.Standing text) : l.here.Reaches l.rescanSlash.here := by
  unfold Lexer.rescanSlash
  split
  · next slash =>
    apply Cursor.Reaches.trans _ (reaches_skipWhile _ _)
    rw [Bool.or_eq_true, decide_eq_true_iff, decide_eq_true_iff] at slash
    rcases slash with slash | slashEquals
    · obtain ⟨mark, stop⟩ := h.mark _ slash
      rw [← stop, (mark_of_readPiece mark).2]
      exact reaches_regularExpressionEnd _ _ _
    · obtain ⟨mark, stop⟩ := h.mark _ slashEquals
      obtain ⟨begins, alone⟩ := mark_of_readPiece mark
      obtain ⟨rest, written⟩ := Punctuator.exists_of_begins begins
      have body : l.first.next = ⟨l.first.offset + 1, '=' :: rest⟩ := Cursor.next_of_cons written
      have two : l.first.skip 2 = ⟨l.first.offset + 1 + 1, rest⟩ := by
        change l.first.next.next = _
        rw [body]
        rfl
      -- an equals sign neither ends the expression nor opens a class
      have later : regularExpressionEnd false (l.first.offset + 1) ('=' :: rest) =
          regularExpressionEnd false (l.first.offset + 1 + 1) rest := by
        rw [regularExpressionEnd.eq_def]
        dsimp only
        rw [if_neg (by decide), if_neg (by decide), if_neg (by decide)]
        rfl
      rw [← stop, alone]
      change Cursor.Reaches (l.first.skip 2) _
      rw [two, body, later]
      exact reaches_regularExpressionEnd _ _ _
  · exact .refl _

theorem here_reaches_rescanTemplate (h : l.Standing text) (brace : l.kind = .mark .closeBrace) :
    l.here.Reaches l.rescanTemplate.here := by
  obtain ⟨mark, stop⟩ := h.mark _ brace
  change l.here.Reaches (readTemplate false (l.first.nextByte l.text)).stop
  rw [h.nextByte brace, ← stop, (mark_of_readPiece mark).2]
  exact reaches_readTemplate false _

theorem inRange (h : l.Standing text) : l.InRange text := by
  obtain ⟨p, there, full, later⟩ := h.first
  have first := h.reaches_first
  have here := first.trans h.here
  exact {
    fullStart_le := full ▸ later.offset_le
    first_le := h.here.offset_le
    here_le := here.boundary.le
    fullStart := full ▸ there.boundary
    first := first.boundary
    here := here.boundary
    tokenText := by rw [first.slice h.here, Lexer.tokenText, String.toList_ofList]
    rescanSlash := h.here_reaches_rescanSlash.offset_le
    rescanTemplate := fun brace => (h.here_reaches_rescanTemplate brace).offset_le }

end Standing

end Lexer

namespace Session

variable {text : List Char} {s : Session}

theorem step?_eq (h : s.All (Lexer.Seated text)) (request : Request) :
    s.step? request = some (s.step request) := by
  cases request with
  | scan =>
    have here : s.lexer.here.Seated s.lexer.text := h.1.text_eq ▸ h.1.here
    rw [step?, Lexer.scan?_eq here]
    rfl
  | rescanSlash | rescanTemplate | save | restore => rfl

theorem run?_eq (h : s.All (Lexer.Seated text)) (requests : List Request) :
    s.run? requests = some (s.run requests) := by
  induction requests generalizing s with
  | nil => rfl
  | cons request requests ih =>
    have next : (s.step request).All (Lexer.Seated text) :=
      h.step (fun _ => .scan) (fun _ => .rescanSlash) fun _ => h.1.rescanTemplate
    have first : s.run? (request :: requests) = (s.step? request).bind (·.run? requests) :=
      List.foldlM_cons
    rw [first, step?_eq h, Option.bind_some]
    exact ih next

theorem run_standing (h : s.All (Lexer.Standing text)) {requests : List Request}
    (braces : s.BracesOnly requests) : (s.run requests).All (Lexer.Standing text) := by
  induction requests generalizing s with
  | nil => exact h
  | cons request requests ih =>
    obtain ⟨here, later⟩ := braces
    exact ih (h.step (fun _ => .scan) (fun _ => .rescanSlash)
      fun template => h.1.rescanTemplate (here template)) later

end Session

/-- Whatever is asked of a lexer, and in whatever order, no cut of the text fails. Where the rest of
a template is only asked for at a brace that closes, every token on the way lies in order within the
text. -/
theorem Session.run_inRange (source : String) (skipTrivia : Bool) (requests : List Request) :
    let s := Session.start source.toList skipTrivia
    s.run? requests = some (s.run requests) ∧
      (s.BracesOnly requests →
        ∀ before, before <+: requests → (s.run before).lexer.InRange source.toList) := by
  intro s
  have none_ (I : Lexer → Prop) : ∀ l ∈ s.saved, I l := fun l member => by cases member
  constructor
  · exact run?_eq ⟨Lexer.seated_start .., none_ _⟩ requests
  · intro braces before first
    have here := run_standing ⟨Lexer.standing_start .., none_ _⟩ (BracesOnly.shorter braces first)
    exact here.1.inRange

theorem Session.run_inRange_template :
    let s := Session.start "\x60é$\x7ba\x7d\x60/=c/".toList true
    let requests := [.scan, .scan, .scan, .save, .rescanTemplate, .scan, .rescanSlash, .restore 0]
    s.BracesOnly requests ∧ (s.run requests).lexer.InRange "\x60é$\x7ba\x7d\x60/=c/".toList := by
  intro s requests
  have braces : s.BracesOnly requests := by decide +kernel
  exact ⟨braces, (Session.run_inRange _ true requests).2 braces requests (List.prefix_refl _)⟩

-- Asked for at another token, the rest of a template may stop inside a character.
example : ((Session.start "é".toList true).run [.scan, .rescanTemplate]).lexer.here.offset = 1 := by
  decide

end PathGuard
