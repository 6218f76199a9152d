import Mathlib.Data.List.Forall2
import PathGuard.Proofs.Grammar.Single
import PathGuard.Proofs.Token.Destructuring
/-!
# Reading destructuring declarations

The words of a declaration that takes properties out of a chain become a declaration whose name is
an object pattern, with an element for each of those that were written, and whose value is the chain.
-/

namespace PathGuard

def Element.isRest : Element → Bool
  | rest _ => true
  | _ => false

namespace Tree

def IsProperty (t : Tree) : Child → Element → Prop
  | none, .same _ | none, .rest _ => True
  | some p, .named key _ => t.IsName p key.text
  | some p, .keyed key _ => ∃ e start stop, t.IsString e key.text ∧
      t.Is p .computedPropertyName start stop (.computedProperty (some e))
  | _, _ => False

/-- Whether a node is an element of a pattern. -/
def IsElement (t : Tree) (i : Nat) (e : Element) : Prop :=
  ∃ property name start stop, t.IsProperty property e ∧ t.IsName name e.bound.name.text ∧
    t.Is i .bindingElement start stop (.bindingElement e.isRest property (some name) none)

def IsPattern (t : Tree) (i : Nat) (es : List Element) : Prop :=
  ∃ ids start stop, List.Forall₂ t.IsElement ids es ∧
    t.Is i .objectBindingPattern start stop (.bindingPattern (.ofNodes (ids.map some)))

/-- Whether a node is the variable of a declaration, with its pattern and its value. -/
def IsDestructuring (t : Tree) (i : Nat) (d : Destructuring) : Prop :=
  ∃ pattern value, t.IsPattern pattern d.elements ∧
    t.Chained d.chainStart d.chain.base d.chain.links value ∧
    t.Is i .variableDeclaration 6 (6 + byteLength d.spanChars)
      (.variableDeclaration (some pattern) (some value))

def IsDestructuringStatement (t : Tree) (i : Nat) (d : Destructuring) : Prop :=
  ∃ declaration list stop last, t.IsDestructuring declaration d ∧
    t.Is list .variableDeclarationList 0 stop (.variableList (.ofNodes [some declaration])) ∧
    t.Is i .variableStatement 0 last (.variableList (.ofNodes [some list]))

variable {t t' : Tree} {i : Nat}

theorem IsProperty.of_extends {property : Child} {e : Element} (h : t.IsProperty property e)
    (grows : t.Extends t') : t'.IsProperty property e := by
  cases e with
  | same n =>
    cases property with
    | none => trivial
    | some p => cases h
  | named key n =>
    cases property with
    | none => cases h
    | some p => exact Tree.IsName.of_extends h grows
  | keyed key n =>
    cases property with
    | none => cases h
    | some p =>
      obtain ⟨e, start, stop, ⟨first, last, raw, string⟩, is⟩ := h
      exact ⟨e, start, stop, ⟨first, last, raw, string.of_extends grows⟩, is.of_extends grows⟩
  | rest n =>
    cases property with
    | none => trivial
    | some p => cases h

theorem IsElement.of_extends {e : Element} (h : t.IsElement i e) (grows : t.Extends t') :
    t'.IsElement i e := by
  obtain ⟨property, name, start, stop, isProperty, isName, is⟩ := h
  exact ⟨property, name, start, stop, isProperty.of_extends grows, isName.of_extends grows,
    is.of_extends grows⟩

theorem IsPattern.of_extends {es : List Element} (h : t.IsPattern i es) (grows : t.Extends t') :
    t'.IsPattern i es := by
  obtain ⟨ids, start, stop, elements, is⟩ := h
  exact ⟨ids, start, stop, elements.imp fun _ _ e => e.of_extends grows, is.of_extends grows⟩

theorem IsDestructuring.of_extends {d : Destructuring} (h : t.IsDestructuring i d)
    (grows : t.Extends t') : t'.IsDestructuring i d := by
  obtain ⟨pattern, value, elements, chain, is⟩ := h
  exact ⟨pattern, value, elements.of_extends grows, chain.of_extends grows, is.of_extends grows⟩

theorem IsDestructuringStatement.of_extends {d : Destructuring}
    (h : t.IsDestructuringStatement i d) (grows : t.Extends t') :
    t'.IsDestructuringStatement i d := by
  obtain ⟨declaration, list, stop, last, inner, isList, is⟩ := h
  exact ⟨declaration, list, stop, last, inner.of_extends grows, isList.of_extends grows,
    is.of_extends grows⟩

end Tree

namespace Parser

variable {sub : PhraseParser} {offset depth : Nat} {ws ws' : List Word} {c : Context}
  {s : ParserState}

/-! ### Elements -/

/-- Whether names that are bound are read, `depth` levels deep. -/
def ReadsNames (sub : PhraseParser) (c : Context) (depth : Nat) : Prop :=
  ∀ (n : FreeName) (blank : Bool) (offset : Nat) (ws : List Word),
    Reads (sub .binding) offset (n.name.word blank :: ws) c depth
      (offset + (n.name.word blank).size) ws fun i t => t.IsName i n.name.text

def endsElement (k : TokenKind) : Bool := k == .mark .comma || k == .mark .closeBrace

theorem endsElement_cases {k : TokenKind} (ends : endsElement k = true) :
    k = .mark .comma ∨ k = .mark .closeBrace := by
  rwa [endsElement, Bool.or_eq_true, beq_iff_eq, beq_iff_eq] at ends

theorem At.noInitializer (at_ : At offset ws c depth s) (other : headKind ws ≠ .mark .equals) :
    initializer sub s = (none, s) := by
  rw [initializer, run_bind (at_.acceptMark_other other)]
  rfl

theorem reads_propertyName (n : AsciiName) (blank : Bool) :
    Reads (propertyName sub) offset (n.word blank :: ws) c depth (offset + (n.word blank).size) ws
      fun i t => t.IsName i n.text := by
  intro s at_
  have read := reads_identifierName n blank s at_
  rw [propertyName, run_bind at_.kind]
  simp only [AsciiName.word, AsciiName.kind]
  cases Keyword.ofText? n.text <;> exact read

theorem reads_computedName (keys : ReadsKeys sub c depth) (p : PlainText) :
    Reads (propertyName sub) offset (markWord .openBracket true :: p.word false ::
        markWord .closeBracket false :: ws) c depth
      (offset + (markWord .openBracket true).size + (p.word false).size +
        (markWord .closeBracket false).size) ws fun i t => ∃ e start stop, t.IsString e p.text ∧
          t.Is i .computedPropertyName start stop (.computedProperty (some e)) := by
  intro s at_
  obtain ⟨s₁, run₁, at₁, same₁⟩ := at_.advance
  have key := keys p (offset + (markWord .openBracket true).size)
    (markWord .closeBracket false :: ws) rfl
  obtain ⟨e, s₂, run₂, at₂, grows₂, string⟩ := (reads_assignmentOrReport key).within s₁ at₁
  obtain ⟨s₃, run₃, at₃, same₃⟩ := at₂.expectMark
  obtain ⟨i, s₄, run₄, at₄, grows₄, is⟩ := at₃.add (k := .computedPropertyName)
    (r := .computedProperty (some e)) rfl 0 (offset + byteLength (markWord .openBracket true).margin)
  rw [same₁] at grows₂
  rw [same₃] at grows₄
  obtain ⟨first, last, raw, literal⟩ := string
  refine ⟨i, s₄, ?_, at₄, grows₂.trans grows₄, e, _, _,
    ⟨first, last, raw, literal.of_extends grows₄⟩, is⟩
  rw [propertyName, run_bind at_.kind]
  change computedName sub s = _
  rw [computedName, run_bind at_.tokenStart, run_bind run₁, run_bind run₂, run_bind run₃]
  exact run₄

theorem reads_renamed (names : ReadsNames sub c depth) (n : FreeName) {start offset' : Nat}
    {Q : Nat → Tree → Prop} (keeps : ∀ i t t', Q i t → t.Extends t' → Q i t')
    (ends : endsElement (headKind ws) = true)
    (h : Reads (propertyName sub) offset ws' c depth offset'
      (markWord .colon false :: n.name.word true :: ws) Q) :
    Reads (propertyElement sub start) offset ws' c depth
      (offset' + (markWord .colon false).size + (n.name.word true).size) ws fun i t =>
        ∃ property name stop, Q property t ∧ t.IsName name n.name.text ∧
          t.Is i .bindingElement start stop
            (.bindingElement false (some property) (some name) none) := by
  intro s at_
  obtain ⟨p, s₁, run₁, at₁, grows₁, property⟩ := h s at_
  obtain ⟨s₂, run₂, at₂, same₂⟩ := at₁.acceptMark
  obtain ⟨b, s₃, run₃, at₃, grows₃, name⟩ := names n true _ _ s₂ at₂
  have other : headKind ws ≠ .mark .equals := by
    rcases endsElement_cases ends with k | k <;> rw [k] <;> exact nofun
  obtain ⟨i, s₄, run₄, at₄, grows₄, is⟩ := at₃.add (k := .bindingElement)
    (r := .bindingElement false (some p) (some b) none) rfl 0 start
  rw [same₂] at grows₃
  refine ⟨i, s₄, ?_, at₄, (grows₁.trans grows₃).trans grows₄, p, b, _,
    keeps p _ _ property (grows₃.trans grows₄), name.of_extends grows₄, is⟩
  rw [propertyElement, run_bind at_.atIdentifier, run_bind run₁]
  change ((acceptMark .colon >>= fun _ => _) : Parser Child) s₁ = _
  rw [run_bind run₂]
  change ((sub .binding >>= fun _ => _) : Parser Child) s₂ = _
  rw [run_bind run₃, run_bind (at₃.noInitializer other)]
  exact run₄

theorem reads_shorthand (n : FreeName) {start : Nat} (blank : Bool)
    (ends : endsElement (headKind ws) = true) :
    Reads (propertyElement sub start) offset (n.name.word blank :: ws) c depth
      (offset + (n.name.word blank).size) ws fun i t => ∃ name stop, t.IsName name n.name.text ∧
        t.Is i .bindingElement start stop (.bindingElement false none (some name) none) := by
  intro s at_
  have key : Reads (propertyName sub) offset (n.name.word blank :: ws) c depth _ ws _ :=
    reads_propertyName n.name blank
  obtain ⟨b, s₁, run₁, at₁, grows₁, name⟩ := key s at_
  have noColon : headKind ws ≠ .mark .colon := by
    rcases endsElement_cases ends with k | k <;> rw [k] <;> exact nofun
  have noEquals : headKind ws ≠ .mark .equals := by
    rcases endsElement_cases ends with k | k <;> rw [k] <;> exact nofun
  obtain ⟨i, s₂, run₂, at₂, grows₂, is⟩ := at₁.add (k := .bindingElement)
    (r := .bindingElement false none (some b) none) rfl 0 start
  refine ⟨i, s₂, ?_, at₂, grows₁.trans grows₂, b, _, name.of_extends grows₂, is⟩
  have named : isNameIn c (headKind (n.name.word blank :: ws)) = true := by
    change isNameIn c n.name.kind = true
    rw [n.free.kind_eq]
    rfl
  rw [propertyElement, run_bind at_.atIdentifier, named, run_bind run₁]
  change ((acceptMark .colon >>= fun _ => _) : Parser Child) s₁ = _
  rw [run_bind (at₁.acceptMark_other noColon)]
  change ((initializer sub >>= fun _ => _) : Parser Child) s₁ = _
  rw [run_bind (at₁.noInitializer noEquals)]
  exact run₂

theorem reads_element (keys : ReadsKeys sub c depth) (names : ReadsNames sub c depth) (e : Element)
    (ends : endsElement (headKind ws) = true) :
    Reads (objectElement sub) offset (e.words ++ ws) c depth
      (offset + byteLength (' ' :: e.chars)) ws fun i t => t.IsElement i e := by
  have size : byteLength (' ' :: e.chars) = (e.words.map Word.size).sum := by
    rw [← e.spelled_words, byteLength_spelled]
  rw [size]
  -- only the last form begins with dots
  have plain {w : Word} {more : List Word} (other : w.kind ≠ .mark .dotDotDot) {offset' : Nat}
      {Q : Nat → Tree → Prop} (h : Reads (propertyElement sub (offset + byteLength w.margin)) offset
        (w :: more) c depth offset' ws Q) :
      Reads (objectElement sub) offset (w :: more) c depth offset' ws Q := by
    intro s at_
    rw [objectElement, run_bind at_.tokenStart, run_bind (at_.acceptMark_other other)]
    exact h s at_
  cases e with
  | same n =>
    have other : (n.name.word true).kind ≠ .mark .dotDotDot := by
      change n.name.kind ≠ _
      rw [n.free.kind_eq]
      exact nofun
    intro s at_
    obtain ⟨i, s', run, after, grows, b, stop, name, is⟩ :=
      plain other (reads_shorthand n true ends) s at_
    exact ⟨i, s', run, after, grows, none, b, _, stop, trivial, name, is⟩
  | named key n =>
    have other : (key.word true).kind ≠ .mark .dotDotDot := by
      change key.kind ≠ _
      unfold AsciiName.kind
      split <;> exact nofun
    have read : Reads (propertyName sub) offset
        (key.word true :: markWord .colon false :: n.name.word true :: ws) c depth
        (offset + (key.word true).size) (markWord .colon false :: n.name.word true :: ws)
        fun i t => t.IsProperty (some i) (.named key n) := reads_propertyName key true
    intro s at_
    obtain ⟨i, s', run, after, grows, p, b, stop, property, name, is⟩ :=
      plain other (reads_renamed names n (fun _ _ _ h grows => h.of_extends grows) ends read) s at_
    refine ⟨i, s', run, ?_, grows, some p, b, _, stop, property, name, is⟩
    rw [Nat.add_assoc, Nat.add_assoc] at after
    exact after
  | keyed key n =>
    have other : (markWord .openBracket true).kind ≠ .mark .dotDotDot := nofun
    have read : Reads (propertyName sub) offset (markWord .openBracket true :: key.word false ::
          markWord .closeBracket false :: markWord .colon false :: n.name.word true :: ws) c depth
        (offset + (markWord .openBracket true).size + (key.word false).size +
          (markWord .closeBracket false).size) (markWord .colon false :: n.name.word true :: ws)
        fun i t => t.IsProperty (some i) (.keyed key n) := reads_computedName keys key
    intro s at_
    obtain ⟨i, s', run, after, grows, p, b, stop, property, name, is⟩ :=
      plain other (reads_renamed names n (fun _ _ _ h grows => h.of_extends grows) ends read) s at_
    refine ⟨i, s', run, ?_, grows, some p, b, _, stop, property, name, is⟩
    rw [Nat.add_assoc, Nat.add_assoc, Nat.add_assoc, Nat.add_assoc] at after
    exact after
  | rest n =>
    intro s at_
    obtain ⟨s₁, run₁, at₁, same₁⟩ := at_.acceptMark
    obtain ⟨b, s₂, run₂, at₂, grows₂, name⟩ := names n false _ _ s₁ at₁
    obtain ⟨i, s₃, run₃, at₃, grows₃, is⟩ := at₂.add (k := .bindingElement)
      (r := .bindingElement true none (some b) none) rfl 0
      (offset + byteLength (markWord .dotDotDot true).margin)
    rw [same₁] at grows₂
    rw [Nat.add_assoc] at at₃
    refine ⟨i, s₃, ?_, at₃, grows₂.trans grows₃, none, b, _, _, trivial, name.of_extends grows₃, is⟩
    have start : tokenStart s =
        (offset + byteLength (markWord .dotDotDot true).margin, s) := at_.tokenStart
    rw [objectElement, run_bind start, run_bind run₁]
    change restElement sub _ s₁ = _
    rw [restElement, run_bind run₂]
    exact run₃

/-! ### Patterns -/

theorem headKind_element (e : Element) (ws : List Word) :
    headKind (e.words ++ ws) ≠ .mark .closeBrace ∧ headKind (e.words ++ ws) ≠ .endOfFile := by
  have name (n : AsciiName) : n.kind ≠ .mark .closeBrace ∧ n.kind ≠ .endOfFile := by
    unfold AsciiName.kind
    split <;> exact ⟨nofun, nofun⟩
  cases e with
  | same n => exact name n.name
  | named key n => exact name key
  | keyed key n => exact ⟨nofun, nofun⟩
  | rest n => exact ⟨nofun, nofun⟩

theorem run_elementStep {e : Element} {i : Nat} {s' : ParserState}
    (at_ : At offset (e.words ++ ws) c depth s) (run : objectElement sub s = (some i, s'))
    (acc : List Child) :
    objectElementStep sub acc s = ((acceptMark .comma >>= fun more =>
      if more then pure (.yield (some i :: acc)) else pure (.done (some i :: acc))) :
      Parser (ForInStep (List Child))) s' := by
  obtain ⟨noBrace, noEnd⟩ := headKind_element e ws
  have goesOn : (decide (headKind (e.words ++ ws) = .mark .closeBrace) ||
      decide (headKind (e.words ++ ws) = .endOfFile)) = false := by
    rw [decide_eq_false noBrace, decide_eq_false noEnd]
    rfl
  rw [objectElementStep, run_bind at_.kind, goesOn]
  change ((objectElement sub >>= fun _ => _) : Parser (ForInStep (List Child))) s = _
  rw [run_bind run]
  rfl

theorem run_elements (keys : ReadsKeys sub c depth) (names : ReadsNames sub c depth)
    (bound : List Char) {es : List Element} (enough : es.length ≤ bound.length) (acc : List Child)
    {blank : Bool}
    (at_ : At offset (Element.listWords es ++ markWord .closeBrace blank :: ws) c depth s) :
    ∃ ids s', repeatWithin (objectElementStep sub) bound acc s =
        ((ids.map some).reverse ++ acc, s') ∧
      At (offset + byteLength (Element.listChars es)) (markWord .closeBrace blank :: ws) c depth s' ∧
      s.tree.Extends s'.tree ∧ List.Forall₂ s'.tree.IsElement ids es := by
  induction es generalizing bound offset acc s with
  | nil =>
    refine ⟨[], s, ?_, at_, .refl _, .nil⟩
    have done_ : objectElementStep sub acc s = (.done acc, s) := by
      rw [objectElementStep, run_bind at_.kind]
      rfl
    exact run_repeatWithin_done done_ bound
  | cons e es ih =>
    cases bound with
    | nil => cases enough
    | cons b bound =>
      -- the closing brace stands behind the last element, and a comma behind any other one
      cases es with
      | nil =>
        obtain ⟨i, s₁, run₁, at₁, grows₁, element⟩ := reads_element keys names e rfl s at_
        refine ⟨[i], s₁, ?_, at₁, grows₁, .cons element .nil⟩
        have done_ : objectElementStep sub acc s = (.done (some i :: acc), s₁) := by
          rw [run_elementStep at_ run₁, run_bind (at₁.acceptMark_other (p := .comma) nofun)]
          rfl
        exact run_repeatWithin_done done_ _
      | cons e' more =>
        rw [Element.listWords, List.append_assoc, List.cons_append] at at_
        obtain ⟨i, s₁, run₁, at₁, grows₁, element⟩ := reads_element keys names e rfl s at_
        obtain ⟨s₂, run₂, at₂, same₂⟩ := at₁.acceptMark
        obtain ⟨ids, s', run, after, grows, elements⟩ := ih bound
          (Nat.le_of_succ_le_succ enough) (some i :: acc) at₂
        rw [same₂] at grows
        have size : offset + byteLength (' ' :: e.chars) + (markWord .comma false).size +
            byteLength (Element.listChars (e' :: more)) =
            offset + byteLength (Element.listChars (e :: e' :: more)) := by
          have comma : (markWord .comma false).size = ','.utf8Size := rfl
          have whole : byteLength (Element.listChars (e :: e' :: more)) =
              byteLength (' ' :: e.chars) + byteLength (',' :: Element.listChars (e' :: more)) :=
            byteLength_append (' ' :: e.chars) _
          rw [whole, byteLength, byteLength, comma]
          omega
        rw [size] at after
        refine ⟨i :: ids, s', ?_, after, grows₁.trans grows,
          .cons (element.of_extends grows) elements⟩
        have step : objectElementStep sub acc s = (.yield (some i :: acc), s₂) := by
          rw [run_elementStep at_ run₁, run_bind run₂]
          rfl
        rw [repeatWithin, run_bind step]
        change repeatWithin _ bound (some i :: acc) s₂ = _
        rw [run, List.map_cons, List.reverse_cons, List.append_assoc]
        rfl

theorem reads_objectPattern (room : depth < maxDepth) (keys : ReadsKeys sub c (depth + 1))
    (names : ReadsNames sub c (depth + 1)) (es : List Element) :
    Reads (objectPattern sub) offset
      (markWord .openBrace true :: (Element.listWords es ++ markWord .closeBrace true :: ws)) c depth
      (offset + (markWord .openBrace true).size + byteLength (Element.listChars es) +
        (markWord .closeBrace true).size) ws fun i t => t.IsPattern i es := by
  refine Reads.nested room fun s at_ => ?_
  obtain ⟨s₁, run₁, at₁, same₁⟩ := at_.expectMark
  obtain ⟨left, textLeft, enough⟩ := at₁.textLeft
  rw [List.length_append] at enough
  have few := Element.length_le_listWords es
  obtain ⟨ids, s₂, run₂, at₂, grows₂, elements⟩ := run_elements keys names left (by omega) [] at₁
  obtain ⟨s₃, run₃, at₃, same₃⟩ := at₂.expectMark
  obtain ⟨i, s₄, run₄, at₄, grows₄, is⟩ := at₃.add (k := .objectBindingPattern)
    (r := .bindingPattern (.ofNodes (ids.map some))) rfl 0
    (offset + byteLength (markWord .openBrace true).margin)
  rw [same₁] at grows₂
  rw [same₃] at grows₄
  refine ⟨i, s₄, ?_, at₄, grows₂.trans grows₄, ids, _, _,
    elements.imp fun _ _ e => e.of_extends grows₄, is⟩
  have all : repeating (objectElementStep sub) [] s₁ = ((ids.map some).reverse, s₂) := by
    rw [repeating, run_bind textLeft, run₂, List.append_nil]
  rw [run_bind at_.tokenStart, run_bind run₁, run_bind all, run_bind run₃, List.reverse_reverse]
  exact run₄

theorem readsNames_phrase {fuel : Nat} : ReadsNames (phrase (fuel + 1)) c depth := by
  intro n blank offset ws s at_
  obtain ⟨i, s', run, after, grows, is⟩ := reads_identifier n.free.kind_eq s at_
  refine ⟨i, s', ?_, after, grows, _, _, is⟩
  have kind : headKind (n.name.word blank :: ws) = .identifier := n.free.kind_eq
  change binding (phrase fuel) s = _
  rw [binding, run_bind at_.kind, kind]
  exact run

/-! ### Declarations -/

variable {fuel : Nat}

theorem reads_patternVariable (room : depth + 4 < maxDepth) (es : List Element) {vs : List Word}
    {blank : Bool} {offset' : Nat} {Q : Nat → Tree → Prop}
    (keeps : ∀ i t t', Q i t → t.Extends t' → Q i t')
    (h : Reads (phrase (fuel + 2) .assignment) (offset + (markWord .openBrace true).size +
        byteLength (Element.listChars es) + (markWord .closeBrace true).size +
        (markWord .equals blank).size) vs c depth offset' ws Q) :
    Reads (variableDeclaration (phrase (fuel + 2))) offset (markWord .openBrace true ::
        (Element.listWords es ++ markWord .closeBrace true :: markWord .equals blank :: vs)) c depth
      offset' ws fun i t => ∃ pattern value, t.IsPattern pattern es ∧ Q value t ∧
        t.Is i .variableDeclaration (offset + byteLength (markWord .openBrace true).margin) offset'
          (.variableDeclaration (some pattern) (some value)) := by
  intro s at_
  have keys : ReadsKeys (phrase (fuel + 2)) c (depth + 1) := readsKeys_phrase (by omega)
  obtain ⟨p, s₁, run₁, at₁, grows₁, pattern⟩ :=
    reads_objectPattern (by omega) keys readsNames_phrase es s at_
  obtain ⟨s₂, run₂, at₂, same₂⟩ := at₁.acceptMark
  obtain ⟨v, s₃, run₃, at₃, grows₃, value⟩ := reads_assignmentOrReport h s₂ at₂
  obtain ⟨i, s₄, run₄, at₄, grows₄, is⟩ := at₃.add (k := .variableDeclaration)
    (r := .variableDeclaration (some p) (some v)) rfl 0
    (offset + byteLength (markWord .openBrace true).margin)
  rw [same₂] at grows₃
  refine ⟨i, s₄, ?_, at₄, (grows₁.trans grows₃).trans grows₄, p, v,
    pattern.of_extends (grows₃.trans grows₄), keeps v _ _ value grows₄, is⟩
  have braces : binding (phrase (fuel + 2)) s = (some p, s₁) := by
    rw [binding, run_bind at_.kind]
    exact run₁
  rw [variableDeclaration, run_bind at_.tokenStart, run_bind braces]
  change ((initializer _ >>= fun _ => _) : Parser Child) s₁ = _
  have given : initializer (phrase (fuel + 2)) s₁ = (some v, s₃) := by
    rw [initializer, run_bind run₂]
    exact run₃
  rw [run_bind given]
  exact run₄

theorem reads_constants (room : depth < maxDepth) {vs : List Word} {offset' : Nat}
    {Q : Nat → Tree → Prop} (keeps : ∀ i t t', Q i t → t.Extends t' → Q i t')
    (h : Reads (variableDeclaration (phrase (fuel + 2))) (Destructuring.constName.word false).size vs
      c (depth + 1) offset' [markWord .semicolon false] Q) :
    Reads (phrase (fuel + 3) .statement) 0 (Destructuring.constName.word false :: vs) c depth
      (offset' + (markWord .semicolon false).size) [] fun i t =>
        ∃ declaration list stop last, Q declaration t ∧
          t.Is list .variableDeclarationList 0 stop (.variableList (.ofNodes [some declaration])) ∧
          t.Is i .variableStatement 0 last (.variableList (.ofNodes [some list])) := by
  refine Reads.nested room fun s at_ => ?_
  obtain ⟨s₁, run₁, at₁, same₁⟩ := at_.advance
  rw [Nat.zero_add] at at₁
  obtain ⟨declaration, s₂, run₂, at₂, grows₂, inner⟩ := h s₁ at₁
  obtain ⟨list, s₃, run₃, at₃, grows₃, isList⟩ := at₂.add (k := .variableDeclarationList)
    (r := .variableList (.ofNodes [some declaration])) rfl NodeFlag.constVariables 0
  obtain ⟨s₄, run₄, at₄, same₄⟩ := at₃.endStatement
  obtain ⟨i, s₅, run₅, at₅, grows₅, is⟩ := at₄.add (k := .variableStatement)
    (r := .variableList (.ofNodes [some list])) rfl 0 0
  rw [same₁] at grows₂
  rw [same₄] at grows₅
  refine ⟨i, s₅, ?_, at₅, (grows₂.trans grows₃).trans grows₅, declaration, list, _, _,
    keeps declaration _ _ inner (grows₃.trans grows₅), isList.of_extends grows₅, is⟩
  -- what is left is that the rule of a statement takes these steps one after the other
  have word : (Destructuring.constName.word false).kind = .word .constWord := by decide +kernel
  have kind : headKind (Destructuring.constName.word false :: vs) = .word .constWord := word
  have start : tokenStart s = (0, s) := at_.tokenStart
  have step : declarationStep (phrase (fuel + 2)) [] s₁ = (.done [some declaration], s₂) := by
    rw [declarationStep, run_bind run₂]
    change ((acceptMark .comma >>= fun _ => _) : Parser (ForInStep (List Child))) s₂ = _
    rw [run_bind (at₂.acceptMark_other (p := .comma) nofun)]
    rfl
  obtain ⟨left, textLeft, -⟩ := at₁.textLeft
  have all : repeating (declarationStep (phrase (fuel + 2))) [] s₁ =
      ([some declaration], s₂) := by
    rw [repeating, run_bind textLeft]
    exact run_repeatWithin_done step left
  have listed : variableDeclarationList (phrase (fuel + 2)) s = (some list, s₃) := by
    rw [variableDeclarationList, run_bind start, run_bind at_.kind, kind, run_bind run₁,
      run_bind all]
    exact run₃
  rw [statementHere, run_bind at_.kind, kind]
  change variableStatement (phrase (fuel + 2)) s = _
  rw [variableStatement, run_bind start, run_bind listed, run_bind run₄]
  exact run₅

theorem reads_destructuring (room : depth + 4 < maxDepth) (d : Destructuring) :
    Reads (variableDeclaration (phrase (fuel + 2))) (Destructuring.constName.word false).size
      d.laterWords c depth (6 + byteLength d.spanChars) [markWord .semicolon false]
      fun i t => t.IsDestructuring i d := by
  have start : (Destructuring.constName.word false).size + (markWord .openBrace true).size +
      byteLength (Element.listChars d.elements) + (markWord .closeBrace true).size +
      (markWord .equals true).size + byteLength (d.chain.base.word true).margin = d.chainStart := by
    have before : byteLength ['c', 'o', 'n', 's', 't', ' ', '{'] =
      (Destructuring.constName.word false).size + (markWord .openBrace true).size := by decide
    have behind : byteLength [' ', '}', ' ', '=', ' '] = (markWord .closeBrace true).size +
      (markWord .equals true).size + byteLength (d.chain.base.word true).margin := rfl
    rw [Destructuring.chainStart, byteLength_append, byteLength_append, before, behind]
    omega
  have stop : d.chainStart + byteLength d.chain.chars = 6 + byteLength d.spanChars := by
    have parts : ['c', 'o', 'n', 's', 't', ' ', '{'] ++ Element.listChars d.elements ++
        [' ', '}', ' ', '=', ' '] ++ d.chain.chars =
        ['c', 'o', 'n', 's', 't', ' '] ++ d.spanChars := by
      simp [Destructuring.spanChars]
    rw [Destructuring.chainStart, ← byteLength_append, parts, byteLength_append]
    rfl
  have assigned (offset : Nat) : Reads (phrase (fuel + 2) .assignment) offset
      (d.chain.words true ++ [markWord .semicolon false]) c depth _ _ _ :=
    reads_chain_assignment (by omega) d.chain true rfl
  have value := assigned ((Destructuring.constName.word false).size +
    (markWord .openBrace true).size + byteLength (Element.listChars d.elements) +
    (markWord .closeBrace true).size + (markWord .equals true).size)
  rw [start, stop] at value
  exact reads_patternVariable room d.elements (fun _ _ _ chained grows => chained.of_extends grows)
    value

theorem reads_destructuringStatement (room : depth + 5 < maxDepth) (d : Destructuring) :
    Reads (phrase (fuel + 3) .statement) 0 (Destructuring.constName.word false :: d.laterWords) c
      depth (6 + byteLength d.spanChars + (markWord .semicolon false).size) []
      fun i t => t.IsDestructuringStatement i d :=
  reads_constants (by omega) (fun _ _ _ inner grows => inner.of_extends grows)
    (reads_destructuring (by omega) d)

end Parser

end PathGuard
