import PathGuard.Proofs.Token.Chain
/-!
# Destructuring declarations as text

A declaration that takes properties out of a chain: each element of its pattern binds a name to a
property or to all that is left. The lexer reads such a declaration word by word.
-/

namespace PathGuard

structure FreeName where
  name : AsciiName
  free : name.IsFree

/-- An element of an object pattern: a property under its own name, under another one, one whose name
is a string, and all properties that are left. -/
inductive Element where
  | same (bound : FreeName)
  | named (key : AsciiName) (bound : FreeName)
  | keyed (key : PlainText) (bound : FreeName)
  | rest (bound : FreeName)

namespace Element

def bound : Element → FreeName
  | same n | named _ n | keyed _ n | rest n => n

def taken? : Element → Option String
  | same n => some n.name.text
  | named k _ => some k.text
  | keyed k _ => some k.text
  | rest _ => none

def chars : Element → List Char
  | same n => n.name.chars
  | named k n => k.chars ++ ':' :: ' ' :: n.name.chars
  | keyed k n => '[' :: '"' :: (k.chars ++ '"' :: ']' :: ':' :: ' ' :: n.name.chars)
  | rest n => '.' :: '.' :: '.' :: n.name.chars

def words : Element → List Word
  | same n => [n.name.word true]
  | named k n => [k.word true, markWord .colon false, n.name.word true]
  | keyed k n =>
    [markWord .openBracket true, k.word false, markWord .closeBracket false,
      markWord .colon false, n.name.word true]
  | rest n => [markWord .dotDotDot true, n.name.word false]

def listChars : List Element → List Char
  | [] => []
  | [e] => ' ' :: e.chars
  | e :: e' :: more => ' ' :: (e.chars ++ ',' :: listChars (e' :: more))

def listWords : List Element → List Word
  | [] => []
  | [e] => e.words
  | e :: e' :: more => e.words ++ markWord .comma false :: listWords (e' :: more)

theorem spelled_words (e : Element) : spelled e.words = ' ' :: e.chars := by
  cases e <;>
    simp [words, chars, spelled, markWord, AsciiName.word, PlainText.word, Word.margin,
      Punctuator.chars]

theorem spelled_listWords (es : List Element) : spelled (listWords es) = listChars es := by
  induction es with
  | nil => rfl
  | cons e es ih =>
    cases es with
    | nil => exact e.spelled_words
    | cons e' more =>
      rw [listWords, spelled_append, e.spelled_words, spelled_cons, ih, listChars]
      rfl

theorem length_le_listWords (es : List Element) : es.length ≤ (listWords es).length := by
  have some_ (e : Element) : 1 ≤ e.words.length := by cases e <;> exact Nat.le_add_left 1 _
  induction es with
  | nil => exact Nat.le_refl 0
  | cons e es ih =>
    have first := some_ e
    cases es with
    | nil => exact first
    | cons e' more =>
      simp only [listWords, List.length_append, List.length_cons] at ih ⊢
      omega

end Element

/-- A declaration of constants that takes properties out of a chain. -/
structure Destructuring where
  elements : List Element
  chain : Chain

namespace Destructuring

def constName : AsciiName := 
  ⟨'c', ['o', 'n', 's', 't'], by decide, List.all_eq_true.1 (by decide)⟩

def spanChars (d : Destructuring) : List Char :=
  '{' :: (Element.listChars d.elements ++ [' ', '}', ' ', '=', ' '] ++ d.chain.chars)

def chars (d : Destructuring) : List Char :=
  ['c', 'o', 'n', 's', 't', ' '] ++ d.spanChars ++ [';']

def chainStart (d : Destructuring) : Nat :=
  byteLength (['c', 'o', 'n', 's', 't', ' ', '{'] ++ Element.listChars d.elements ++
    [' ', '}', ' ', '=', ' '])

def valueWords (d : Destructuring) : List Word :=
  markWord .equals true :: (d.chain.words true ++ [markWord .semicolon false])

def laterWords (d : Destructuring) : List Word :=
  markWord .openBrace true ::
    (Element.listWords d.elements ++ markWord .closeBrace true :: d.valueWords)

theorem spelled_valueWords (d : Destructuring) :
    spelled d.valueWords = ' ' :: '=' :: ' ' :: (d.chain.chars ++ [';']) := by
  rw [valueWords, spelled_cons, spelled_append, Chain.spelled_words]
  rfl

theorem spelled_all (d : Destructuring) :
    spelled (constName.word false :: d.laterWords) = d.chars := by
  rw [spelled_cons, laterWords, spelled_cons, spelled_append, Element.spelled_listWords, spelled_cons,
    spelled_valueWords]
  simp [chars, spanChars, constName, AsciiName.word, AsciiName.chars, markWord, Word.margin,
    Punctuator.chars]

end Destructuring

/-! ### Reading declarations -/

theorem endsName_blank (rest : List Char) : EndsName (' ' :: rest) :=
  endsName_cons (by decide +kernel) rest

theorem Element.legible (e : Element) {ws : List Word} (legible : Legible ws)
    (ends : EndsName (spelled ws)) : Legible (e.words ++ ws) := by
  have last (n : FreeName) (blank : Bool) : Legible (n.name.word blank :: ws) :=
    ⟨legible_name n.name blank ends, legible⟩
  have renamed (n : FreeName) : Legible (markWord .colon false :: n.name.word true :: ws) :=
    ⟨legible_alone rfl false _, last n true⟩
  cases e with
  | same n => exact last n true
  | named k n =>
    exact ⟨legible_name k true (endsName_cons (c := ':') (by decide +kernel) _), renamed n⟩
  | keyed k n =>
    exact ⟨legible_alone rfl true _, legible_string k false _, legible_alone rfl false _, renamed n⟩
  | rest n => exact ⟨legible_dots true _, last n false⟩

theorem Element.legible_list (es : List Element) {ws : List Word} (legible : Legible ws)
    (ends : EndsName (spelled ws)) : Legible (listWords es ++ ws) := by
  induction es with
  | nil => exact legible
  | cons e es ih =>
    cases es with
    | nil => exact e.legible legible ends
    | cons e' more =>
      rw [listWords, List.append_assoc]
      exact e.legible ⟨legible_alone rfl false _, ih⟩ (endsName_cons (c := ',') (by decide +kernel) _)

theorem Destructuring.legible (d : Destructuring) :
    Legible (constName.word false :: d.laterWords) := by
  have value : Legible (d.chain.words true ++ [markWord .semicolon false]) :=
    d.chain.legible true ⟨legible_alone rfl false _, trivial⟩ (endsName_cons (by decide +kernel) _)
  have equals : Legible d.valueWords := by
    refine ⟨?_, value⟩
    rw [spelled_append, Chain.spelled_words]
    exact legible_equals true _
  have closed : Legible (markWord .closeBrace true :: d.valueWords) :=
    ⟨legible_alone rfl true _, equals⟩
  exact ⟨legible_name constName false (endsName_blank _), legible_alone rfl true _,
    Element.legible_list d.elements closed (endsName_blank _)⟩

end PathGuard
