import PathGuard.Proofs.Token.Chain
/-!
# Routes as text

A route is what denotes a path: a name, `import.m` or `new.m`, with links behind it, where any
beginning of the whole may stand in parentheses. All of its opening parentheses come first, so a
route of many links and parentheses is still read word by word.
-/

namespace PathGuard

namespace AsciiName

def importWord : AsciiName :=
  ⟨'i', ['m', 'p', 'o', 'r', 't'], by decide, List.all_eq_true.1 (by decide)⟩

def newWord : AsciiName := ⟨'n', ['e', 'w'], by decide, List.all_eq_true.1 (by decide)⟩

theorem importWord_kind : importWord.kind = .word .importWord := by decide

theorem newWord_kind : newWord.kind = .word .newWord := by decide

end AsciiName

/-- A free name or a meta property, with links behind it and parentheses around any beginning of
it. -/
inductive Route where
  | name (name : AsciiName) (free : name.IsFree)
  | importMeta (name : AsciiName)
  | newMeta (name : AsciiName)
  | link (route : Route) (link : Link)
  | parenthesized (route : Route)

namespace Route

def chars : Route → List Char
  | name n _ => n.chars
  | importMeta n => AsciiName.importWord.chars ++ '.' :: n.chars
  | newMeta n => AsciiName.newWord.chars ++ '.' :: n.chars
  | link r l => r.chars ++ l.chars
  | parenthesized r => '(' :: (r.chars ++ [')'])

def segments : Route → List String
  | name n _ => [n.text]
  | importMeta n => ["import", n.text]
  | newMeta n => ["new", n.text]
  | link r l => r.segments ++ [l.text]
  | parenthesized r => r.segments

def isOptional : Route → Bool
  | name .. | importMeta _ | newMeta _ => false
  | link r l => r.isOptional || l.isOptional
  | parenthesized r => r.isOptional

def parens : Route → Nat
  | name .. | importMeta _ | newMeta _ => 0
  | link r _ => r.parens
  | parenthesized r => r.parens + 1

/-- How many nodes lead from the whole to its start: the start, the links and the parentheses. -/
def nodes : Route → Nat
  | name .. | importMeta _ | newMeta _ => 1
  | link r _ | parenthesized r => r.nodes + 1

def outerLinks : Route → Nat
  | link r _ => r.outerLinks + 1
  | _ => 0

def words : Route → List Word
  | name n _ => [n.word false]
  | importMeta n => [AsciiName.importWord.word false, markWord .dot false, n.word false]
  | newMeta n => [AsciiName.newWord.word false, markWord .dot false, n.word false]
  | link r l => r.words ++ l.words
  | parenthesized r => markWord .openParen false :: (r.words ++ [markWord .closeParen false])

theorem spelled_words (r : Route) : spelled r.words = r.chars := by
  induction r with
  | name n free => simp [words, chars, spelled, AsciiName.word, Word.margin]
  | importMeta n | newMeta n =>
    simp [words, chars, spelled, markWord, AsciiName.word, Word.margin, Punctuator.chars]
  | link r l ih => rw [words, chars, spelled_append, ih, l.spelled_words]
  | parenthesized r ih =>
    rw [words, chars, spelled_cons, spelled_append, ih]
    rfl

theorem byteLength_chars (r : Route) : byteLength r.chars = (r.words.map Word.size).sum := by
  rw [← r.spelled_words, byteLength_spelled]

theorem legible_meta (keyword n : AsciiName) {ws : List Word} (legible : Legible ws)
    (ends : EndsName (spelled ws)) :
    Legible (keyword.word false :: markWord .dot false :: n.word false :: ws) :=
  ⟨legible_name keyword false (endsName_cons (by decide +kernel) _), legible_dot false n.starts,
    legible_name n false ends, legible⟩

theorem legible (r : Route) {ws : List Word} (legible : Legible ws) (ends : EndsName (spelled ws)) :
    Legible (r.words ++ ws) := by
  induction r generalizing ws with
  | name n free => exact ⟨legible_name n false ends, legible⟩
  | importMeta n => exact legible_meta _ n legible ends
  | newMeta n => exact legible_meta _ n legible ends
  | link r l ih =>
    rw [words, List.append_assoc]
    apply ih (legible_link l legible ends)
    rw [spelled_append, l.spelled_words]
    exact endsName_link l _
  | parenthesized r ih =>
    have closed : Legible (markWord .closeParen false :: ws) := ⟨legible_alone rfl false _, legible⟩
    have inner := ih closed (endsName_cons (by decide +kernel) _)
    rw [words, List.cons_append, List.append_assoc]
    exact ⟨legible_alone rfl false _, inner⟩

end Route

end PathGuard
