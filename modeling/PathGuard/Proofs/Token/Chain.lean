import PathGuard.Proofs.Token.Spelling
/-!
# Chains of accesses as text

A name with links behind it, each a name behind a dot or a string in brackets, and each written with
`?.` or without. Before a semicolon the lexer reads such a chain word by word.
-/

namespace PathGuard

inductive Link where
  | name (isOptional : Bool) (name : AsciiName)
  | key (isOptional : Bool) (key : PlainText)

namespace Link

def isOptional : Link → Bool
  | name isOptional _ | key isOptional _ => isOptional

def text : Link → String
  | name _ n => n.text
  | key _ s => s.text

def chars : Link → List Char
  | name false n => '.' :: n.chars
  | name true n => '?' :: '.' :: n.chars
  | key false s => '[' :: '"' :: (s.chars ++ ['"', ']'])
  | key true s => '?' :: '.' :: '[' :: '"' :: (s.chars ++ ['"', ']'])

def words : Link → List Word
  | name false n => [markWord .dot false, n.word false]
  | name true n => [markWord .questionDot false, n.word false]
  | key false s => [markWord .openBracket false, s.word false, markWord .closeBracket false]
  | key true s =>
    [markWord .questionDot false, markWord .openBracket false, s.word false,
      markWord .closeBracket false]

theorem spelled_words (l : Link) : spelled l.words = l.chars := by
  cases l with
  | name isOptional n =>
    cases isOptional <;>
      simp [words, chars, spelled, markWord, AsciiName.word, Word.margin, Punctuator.chars]
  | key isOptional s =>
    cases isOptional <;>
      simp [words, chars, spelled, markWord, PlainText.word, Word.margin, Punctuator.chars]

end Link

/-- A free name and the links behind it. -/
structure Chain where
  base : AsciiName
  free : base.IsFree
  links : List Link

namespace Chain

def charsOf (base : AsciiName) (links : List Link) : List Char :=
  base.chars ++ links.flatMap Link.chars

def textOf (base : AsciiName) (links : List Link) : String :=
  ".".intercalate (base.text :: links.map Link.text)

def chars (c : Chain) : List Char := charsOf c.base c.links

def text (c : Chain) : String := textOf c.base c.links

def isOptional (c : Chain) : Bool := c.links.any Link.isOptional

def init (c : Chain) : Chain := { c with links := c.links.dropLast }

def words (c : Chain) (blank : Bool) : List Word :=
  c.base.word blank :: c.links.flatMap Link.words

theorem charsOf_append (base : AsciiName) (links : List Link) (l : Link) :
    charsOf base (links ++ [l]) = charsOf base links ++ l.chars := by
  simp [charsOf]

theorem textOf_append (base : AsciiName) (links : List Link) (l : Link) :
    textOf base (links ++ [l]) = textOf base links ++ "." ++ l.text := by
  rw [textOf, List.map_append, List.map_singleton, ← List.cons_append,
    String.intercalate_append_of_ne_nil (List.cons_ne_nil _ _) (List.cons_ne_nil _ _),
    String.intercalate_singleton, textOf]

theorem spelled_links (links : List Link) :
    spelled (links.flatMap Link.words) = links.flatMap Link.chars := by
  induction links with
  | nil => rfl
  | cons l links ih => rw [List.flatMap_cons, List.flatMap_cons, spelled_append, ih, l.spelled_words]

theorem spelled_words (chain : Chain) (blank : Bool) :
    spelled (chain.words blank) = (chain.base.word blank).margin ++ chain.chars := by
  rw [words, spelled_cons, spelled_links]
  rfl

theorem spelled_statement (chain : Chain) :
    spelled (chain.words false ++ [markWord .semicolon false]) = chain.chars ++ [';'] := by
  rw [spelled_append, chain.spelled_words]
  rfl

end Chain

/-! ### Reading chains -/

theorem endsName_cons {c : Char} (other : (isIdentifierPart c || c == '\\') = false)
    (rest : List Char) : EndsName (c :: rest) := by
  rintro d hd
  rw [List.head?_cons, Option.mem_some_iff] at hd
  rw [Bool.or_eq_false_iff, beq_eq_false_iff_ne] at other
  exact hd ▸ other

theorem endsName_link (l : Link) (rest : List Char) : EndsName (l.chars ++ rest) := by
  cases l with
  | name isOptional n =>
    cases isOptional
    · exact endsName_cons (by decide +kernel) _
    · exact endsName_cons (by decide +kernel) _
  | key isOptional s =>
    cases isOptional
    · exact endsName_cons (by decide +kernel) _
    · exact endsName_cons (by decide +kernel) _

theorem legible_link (l : Link) {ws : List Word} (legible : Legible ws)
    (ends : EndsName (spelled ws)) : Legible (l.words ++ ws) := by
  cases l with
  | name isOptional n =>
    cases isOptional
    · exact ⟨legible_dot false n.starts, legible_name n false ends, legible⟩
    · exact ⟨legible_questionDot false (isAsciiStart_spec n.starts).2.2.2.2.2.2.1,
        legible_name n false ends, legible⟩
  | key isOptional s =>
    have bracketed : Legible (markWord .openBracket false :: s.word false ::
        markWord .closeBracket false :: ws) :=
      ⟨legible_alone rfl false _, legible_string s false _, legible_alone rfl false _, legible⟩
    cases isOptional
    · exact bracketed
    · exact ⟨legible_questionDot false (by decide), bracketed⟩

theorem legible_links (links : List Link) {ws : List Word} (legible : Legible ws)
    (ends : EndsName (spelled ws)) :
    Legible (links.flatMap Link.words ++ ws) ∧ EndsName (spelled (links.flatMap Link.words ++ ws)) := by
  induction links with
  | nil => exact ⟨legible, ends⟩
  | cons l links ih =>
    rw [List.flatMap_cons, List.append_assoc]
    refine ⟨legible_link l ih.1 ih.2, ?_⟩
    rw [spelled_append, l.spelled_words]
    exact endsName_link l _

theorem Chain.legible (c : Chain) (blank : Bool) {ws : List Word} (legible : Legible ws)
    (ends : EndsName (spelled ws)) : Legible (c.words blank ++ ws) := by
  obtain ⟨later, stop⟩ := legible_links c.links legible ends
  exact ⟨legible_name c.base blank stop, later⟩

end PathGuard
