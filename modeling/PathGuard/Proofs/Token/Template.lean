import PathGuard.Proofs.Token.Escape
import PathGuard.Proofs.Token.Identifier
/-!
# Templates as they are written

A template is a first chunk of text and substitutions with a chunk behind each of them. A chunk is
written so that none of its characters ends it. What the lexer reads of it reaches up to the quote or
the next substitution and has the chunk as its value, both where a quote stands in front and where the
brace that closes a substitution is read again.
-/

namespace PathGuard

/-- A character of a chunk before another one as template text. A carriage return would be read as a
line feed, so it is written by its letter; and a dollar sign stands behind a backslash where it would
open a substitution. -/
def templateChar (c : Char) (next : Option Char) : List Char :=
  if c = '\r' then ['\\', 'r']
  else if c = '\x60' ∨ c = '\\' ∨ c = '$' ∧ next = some '\x7b' then ['\\', c]
  else [c]

def templateText : List Char → List Char
  | [] => []
  | c :: chunk => templateChar c chunk.head? ++ templateText chunk

def templateEnd (opens : Bool) : List Char := if opens then ['$', '\x7b'] else ['\x60']

def templateKind : (starts opens : Bool) → LiteralKind
  | true, true => .templateHead
  | true, false => .template
  | false, true => .templateMiddle
  | false, false => .templateTail

variable {chunk rest : List Char} {opens : Bool}

/-! ### Chunks -/

theorem head?_of_templateText (brace : (templateText chunk ++ (templateEnd opens ++ rest)).head? =
    some '\x7b') : chunk.head? = some '\x7b' := by
  cases chunk with
  | nil => cases opens <;> cases brace
  | cons c chunk =>
    rw [templateText, templateChar] at brace
    split at brace
    · cases brace
    split at brace
    · cases brace
    · exact brace

theorem readTemplateContent_escape {text : List Char} {offset : Nat} {c : Char} {stop : Cursor}
    (escape : readEscape ⟨offset + 1, text⟩ = ⟨some c, stop, false⟩) (b : Char) (bound : List Char) :
    readTemplateContent (b :: bound) ⟨offset, '\\' :: text⟩ =
      (readTemplateContent bound stop).push (some c) false := by
  have size : '\\'.utf8Size = 1 := by decide
  rw [readTemplateContent]
  simp [Cursor.next, size, escape]

theorem readTemplateContent_plain {c : Char} {text : List Char} {offset : Nat}
    (noReturn : c ≠ '\r') (noMark : c ≠ '\x60' ∧ c ≠ '\\')
    (noOpening : c = '$' → text.head? ≠ some '\x7b') (b : Char) (bound : List Char) :
    readTemplateContent (b :: bound) ⟨offset, c :: text⟩ =
      (readTemplateContent bound ⟨offset + c.utf8Size, text⟩).push (some c) false := by
  have goesOn : (decide (c = '$') && decide (text.head? = some '\x7b')) = false := by
    rw [Bool.and_eq_false_imp, decide_eq_true_iff, decide_eq_false_iff_not]
    exact noOpening
  rw [readTemplateContent]
  simp only [noMark, goesOn, noReturn, Bool.false_eq_true, if_false]
  rw [Cursor.next_of_cons rfl]

theorem readEscape_self {c : Char} (plain : c = '\x60' ∨ c = '\\' ∨ c = '$') (offset : Nat)
    (rest : List Char) :
    readEscape ⟨offset, c :: rest⟩ = ⟨some c, ⟨offset + byteLength [c], rest⟩, false⟩ := by
  rcases plain with rfl | rfl | rfl <;>
    simp [readEscape, Cursor.peek, Cursor.next, letterEscape?, byteLength]

theorem readTemplateContent_char (c : Char) (chunk : List Char) (opens : Bool) (rest : List Char)
    (offset : Nat) (b : Char) (bound : List Char) :
    let behind := templateText chunk ++ (templateEnd opens ++ rest)
    readTemplateContent (b :: bound) ⟨offset, templateChar c chunk.head? ++ behind⟩ =
      (readTemplateContent bound
        ⟨offset + byteLength (templateChar c chunk.head?), behind⟩).push (some c) false := by
  intro behind
  have pair (d : Char) : offset + 1 + byteLength [d] = offset + byteLength ['\\', d] :=
    Nat.add_assoc ..
  rw [templateChar]
  by_cases return_ : c = '\r'
  · rw [if_pos return_]
    subst return_
    have letter : Escapes '\r' ['r'] := .letter (by decide)
    have escape := letter.read (offset + 1) behind
    rw [pair] at escape
    exact readTemplateContent_escape escape b bound
  rw [if_neg return_]
  by_cases marked : c = '\x60' ∨ c = '\\' ∨ c = '$' ∧ chunk.head? = some '\x7b'
  · rw [if_pos marked]
    have escape := readEscape_self (marked.imp_right (Or.imp_right And.left)) (offset + 1) behind
    rw [pair] at escape
    exact readTemplateContent_escape escape b bound
  · rw [if_neg marked]
    rw [not_or, not_or, not_and] at marked
    obtain ⟨noQuote, noEscape, noOpening⟩ := marked
    exact readTemplateContent_plain return_ ⟨noQuote, noEscape⟩
      (fun dollar brace => noOpening dollar (head?_of_templateText brace)) b bound

theorem readTemplateContent_chunk (opens : Bool) (chunk : List Char) {bound : List Char}
    (enough : (templateText chunk).length < bound.length) (offset : Nat) (rest : List Char) :
    readTemplateContent bound ⟨offset, templateText chunk ++ (templateEnd opens ++ rest)⟩ =
      ⟨⟨chunk, ⟨offset + byteLength (templateText chunk ++ templateEnd opens), rest⟩, false⟩,
        opens⟩ := by
  induction chunk generalizing bound offset with
  | nil =>
    obtain ⟨b, bound, rfl⟩ := List.exists_cons_of_length_pos enough
    rw [readTemplateContent]
    cases opens <;> rfl
  | cons c chunk ih =>
    obtain ⟨b, bound, rfl⟩ := List.exists_cons_of_length_pos (Nat.zero_lt_of_lt enough)
    have some_ : 1 ≤ (templateChar c chunk.head?).length := by
      unfold templateChar
      split
      · decide
      · split <;> exact Nat.succ_pos _
    have short : (templateText chunk).length < bound.length := by
      rw [templateText, List.length_append, List.length_cons] at enough
      omega
    rw [templateText, List.append_assoc, readTemplateContent_char, ih short, List.append_assoc,
      byteLength_append (templateChar c chunk.head?), ← Nat.add_assoc]
    rfl

/-! ### Pieces -/

def templateWord (starts opens : Bool) (chunk : List Char) : Word where
  kind := .literal (templateKind starts opens)
  value := String.ofList chunk
  blank := false
  chars := (if starts then '\x60' else '\x7d') :: (templateText chunk ++ templateEnd opens)

theorem readTemplate_chunk (starts opens : Bool) (chunk : List Char) (offset : Nat)
    (rest : List Char) :
    readTemplate starts ⟨offset, templateText chunk ++ (templateEnd opens ++ rest)⟩ =
      ⟨.literal (templateKind starts opens),
        ⟨offset + byteLength (templateText chunk ++ templateEnd opens), rest⟩, String.ofList chunk,
        .none⟩ := by
  have some_ : 1 ≤ (templateEnd opens).length := by cases opens <;> decide
  have enough : (templateText chunk).length <
      (templateText chunk ++ (templateEnd opens ++ rest)).length := by
    rw [List.length_append, List.length_append]
    omega
  unfold readTemplate
  dsimp only
  rw [readTemplateContent_chunk opens chunk enough]
  cases starts <;> cases opens <;> rfl

theorem legible_template (opens : Bool) (chunk rest : List Char) :
    (templateWord true opens chunk).Legible rest := by
  refine ⟨rfl, nofun, ⟨'\x60', _, rfl, by decide⟩, fun offset => ⟨.none, TokenFlags.isQuiet_none, ?_⟩⟩
  have begins (behind : List Char) :
      readPiece ⟨offset, '\x60' :: behind⟩ = readTemplate true ⟨offset + 1, behind⟩ := by
    have size : '\x60'.utf8Size = 1 := by decide
    simp [readPiece, List.isPrefixOf, isLineTerminator, isInlineBlank, Cursor.next, size]
  change readPiece ⟨offset, '\x60' :: (templateText chunk ++ templateEnd opens ++ rest)⟩ = _
  rw [begins, List.append_assoc, readTemplate_chunk, Nat.add_assoc]
  rfl

/-! ### Substitutions -/

def Ending.brace (rest : List Char) : Ending := ⟨.mark .closeBrace, '\x7d' :: rest⟩

namespace Lexer

variable {l : Lexer} {offset : Nat} {ws : List Word} {e : Ending}

theorem scan_brace (skips : l.skipTrivia = true) (here : l.here = ⟨offset, '\x7d' :: rest⟩) :
    l.scan.Stands offset [] (.brace rest) := by
  have legible : (markWord .closeBrace false).Legible rest := legible_alone rfl false rest
  obtain ⟨flags, quiet, scanned⟩ := scan_word (w := markWord .closeBrace false) skips here legible
  exact ⟨by rw [scanned]; rfl, by rw [scanned]; exact quiet, nofun, by rw [scanned]; rfl,
    by rw [scanned]; exact skips⟩

theorem scan_identifier_brace (skips : l.skipTrivia = true) (x : Identifier)
    (here : l.here = ⟨offset, x.chars ++ '\x7d' :: rest⟩) :
    l.scan.Stands offset [x.word false] (.brace rest) := by
  have ends : endsIdentifier '\x7d' = true := by decide +kernel
  have legible := x.legible false ends rest
  exact scan_stands_cons (w := x.word false) skips here legible (Nat.le_of_eq (Nat.zero_add _))
    fun l' skips' here' => scan_brace skips' here'

/-- At the brace that closes a substitution, the template goes on: another reading of the brace makes
it the next piece of the template. -/
theorem Ends.rescanTemplate
    (h : l.Ends offset (.brace (templateText chunk ++ (templateEnd opens ++ rest))))
    (few : ws.length + e.rest.length ≤ rest.length)
    (behind : ∀ l' : Lexer, l'.skipTrivia = true →
      l'.here = ⟨offset + (templateWord false opens chunk).size, rest⟩ →
      l'.scan.Stands (offset + (templateWord false opens chunk).size) ws e) :
    l.rescanTemplate.Stands offset (templateWord false opens chunk :: ws) e := by
  have size : '\x7d'.utf8Size = 1 := by decide
  have next : l.first.nextByte l.text =
      ⟨offset + 1, templateText chunk ++ (templateEnd opens ++ rest)⟩ := by
    rw [h.first]
    simp [Cursor.nextByte, Ending.brace, size]
  have length : offset + 1 + byteLength (templateText chunk ++ templateEnd opens) =
      offset + (templateWord false opens chunk).size := by
    change _ = offset + (0 + ('\x7d'.utf8Size + _))
    rw [size, Nat.zero_add, Nat.add_assoc]
  have again : l.rescanTemplate = { l with
      here := ⟨offset + (templateWord false opens chunk).size, rest⟩
      kind := .literal (templateKind false opens)
      value := String.ofList chunk } := by
    unfold Lexer.rescanTemplate
    rw [next, readTemplate_chunk, length]
    dsimp only
    rw [TokenFlags.union_none]
  have known : (templateWord false opens chunk).kind ≠ .unknown := by
    intro unknown
    cases unknown
  rw [again]
  refine ⟨⟨rfl, rfl, h.quiet, known⟩, ⟨?_, rfl, ?_⟩, behind _ h.skips rfl⟩
  · rw [h.first]
    rfl
  · rw [h.first]
    simp only [Ending.brace, List.length_cons, List.length_append]
    omega

end Lexer

/-! ### Whole templates -/

/-- A template: its first chunk, and the identifiers in its substitutions, each with the chunk behind
it. -/
structure Template where
  first : List Char
  spans : List (Identifier × List Char)

namespace Template

def chars (t : Template) : List Char :=
  let substitutions := t.spans.flatMap fun span =>
    '$' :: '\x7b' :: (span.1.chars ++ '\x7d' :: templateText span.2)
  '\x60' :: (templateText t.first ++ substitutions ++ ['\x60'])

def head (t : Template) : Word := templateWord true (!t.spans.isEmpty) t.first

end Template

def substituted : List (Identifier × List Char) → List Char
  | [] => []
  | (x, chunk) :: spans =>
    x.chars ++ '\x7d' :: (templateText chunk ++ (templateEnd (!spans.isEmpty) ++ substituted spans))

/-- The words behind a piece of a template: the identifier in the next substitution, or those behind
the template. -/
def nextWords (ws : List Word) : List (Identifier × List Char) → List Word
  | [] => ws
  | (x, _) :: _ => [x.word false]

def nextEnding (rest : List Char) : List (Identifier × List Char) → Ending
  | [] => .endOfText
  | (_, chunk) :: spans =>
    .brace (templateText chunk ++ (templateEnd (!spans.isEmpty) ++ (substituted spans ++ rest)))

theorem Template.chars_eq (t : Template) : t.chars = t.head.chars ++ substituted t.spans := by
  have behind (spans : List (Identifier × List Char)) :
      (spans.flatMap fun span =>
        '$' :: '\x7b' :: (span.1.chars ++ '\x7d' :: templateText span.2)) ++ ['\x60'] =
          templateEnd (!spans.isEmpty) ++ substituted spans := by
    induction spans with
    | nil => rfl
    | cons span spans ih =>
      rw [List.flatMap_cons, List.append_assoc, ih]
      simp [substituted, templateEnd]
  rw [chars, head, templateWord]
  simp only [if_true, List.cons_append, List.append_assoc, behind]

variable {ws : List Word} {spans : List (Identifier × List Char)} {l : Lexer} {offset : Nat}

theorem length_nextWords (legible : Legible ws) :
    (nextWords ws spans).length + (nextEnding (spelled ws) spans).rest.length ≤
      (substituted spans ++ spelled ws).length := by
  cases spans with
  | nil => exact length_le_spelled legible
  | cons span spans =>
    obtain ⟨x, chunk⟩ := span
    obtain ⟨c, cs, here, -⟩ := beginsName x.plain
    have some_ : x.chars = c :: cs := here
    simp only [nextWords, nextEnding, Ending.brace, substituted, some_, List.length_cons,
      List.length_append, List.length_nil]
    omega

theorem Lexer.scan_nextWords (legible : Legible ws) (skips : l.skipTrivia = true)
    (here : l.here = ⟨offset, substituted spans ++ spelled ws⟩) :
    l.scan.Stands offset (nextWords ws spans) (nextEnding (spelled ws) spans) := by
  cases spans with
  | nil => exact scan_stands skips here legible
  | cons span spans =>
    obtain ⟨x, chunk⟩ := span
    apply scan_identifier_brace skips x
    simpa only [substituted, List.append_assoc, List.cons_append] using here

theorem Lexer.scan_template (legible : Legible ws) (skips : l.skipTrivia = true) (t : Template)
    (here : l.here = ⟨offset, t.chars ++ spelled ws⟩) :
    l.scan.Stands offset (t.head :: nextWords ws t.spans) (nextEnding (spelled ws) t.spans) := by
  rw [t.chars_eq, List.append_assoc] at here
  exact scan_stands_cons (w := t.head) skips here (legible_template ..) (length_nextWords legible)
    fun l' skips' here' => scan_nextWords legible skips' here'

end PathGuard
