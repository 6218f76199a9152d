import PathGuard.Proofs.Grammar.Operand
import PathGuard.Proofs.Token.Chain
/-!
# Reading chains

The words of a chain become accesses around each other: the last link is the outermost access, and
each access ends where its link ends.
-/

namespace PathGuard

def Link.kind : Link → NodeKind
  | name .. => .propertyAccess
  | key .. => .elementAccess

namespace Tree

def IsName (t : Tree) (i : Nat) (name : String) : Prop :=
  ∃ start stop, t.Is i (.token .identifier) start stop (.identifier name)

def IsString (t : Tree) (i : Nat) (text : String) : Prop :=
  ∃ start stop raw, t.Is i (.token (.literal .string)) start stop (.literal text raw)

def IsLiteral (t : Tree) (i : Nat) (k : LiteralKind) (text : String) : Prop :=
  ∃ start stop raw, t.Is i (.token (.literal k)) start stop (.literal text raw)

/-- Whether a node is the key of a link. -/
def IsKey (t : Tree) (i : Nat) : Link → Prop
  | .name _ n => t.IsName i n.text
  | .key _ s => t.IsString i s.text

/-- Whether a node is an access with a link, around the node `e`. -/
def IsLink (t : Tree) (i e : Nat) (l : Link) (start stop : Nat) : Prop :=
  ∃ k, t.IsKey k l ∧ t.Is i l.kind start stop (.access (some e) (some k) l.isOptional)

/-- Whether a node is a name, which begins at `start`, with links behind it. -/
inductive Chained (t : Tree) (start : Nat) (base : AsciiName) : List Link → Nat → Prop where
  | base {i : Nat}
      (is : t.Is i (.token .identifier) start (start + byteLength base.chars)
        (.identifier base.text)) : Chained t start base [] i
  | link {links : List Link} {l : Link} {e i : Nat} (inner : Chained t start base links e)
      (is : t.IsLink i e l start (start + byteLength (Chain.charsOf base (links ++ [l])))) :
      Chained t start base (links ++ [l]) i

variable {t t' : Tree}

theorem IsName.of_extends {i : Nat} {name : String} (h : t.IsName i name) (grows : t.Extends t') :
    t'.IsName i name := by
  obtain ⟨start, stop, is⟩ := h
  exact ⟨start, stop, is.of_extends grows⟩

theorem IsLiteral.of_extends {i : Nat} {k : LiteralKind} {text : String} (h : t.IsLiteral i k text)
    (grows : t.Extends t') : t'.IsLiteral i k text := by
  obtain ⟨start, stop, raw, is⟩ := h
  exact ⟨start, stop, raw, is.of_extends grows⟩

theorem IsKey.of_extends {i : Nat} {l : Link} (h : t.IsKey i l) (grows : t.Extends t') :
    t'.IsKey i l := by
  cases l with
  | name isOptional n => exact IsName.of_extends h grows
  | key isOptional s => exact IsLiteral.of_extends (k := .string) h grows

theorem Chained.of_extends {start i : Nat} {base : AsciiName} {links : List Link}
    (h : t.Chained start base links i) (grows : t.Extends t') : t'.Chained start base links i := by
  induction h with
  | base is => exact .base (is.of_extends grows)
  | link inner is ih =>
    obtain ⟨k, key, is⟩ := is
    exact .link ih ⟨k, key.of_extends grows, is.of_extends grows⟩

end Tree

namespace Parser

variable {sub : PhraseParser} {offset depth : Nat} {ws : List Word} {c : Context} {b : Ending}

/-! ### Names and strings -/

theorem reads_takeIdentifier {w : Word} : Reads (takeIdentifier .identifier) offset (w :: ws) c depth
    (offset + w.size) ws (fun i t => t.Is i (.token .identifier) (offset + byteLength w.margin)
      (offset + w.size) (.identifier w.value)) b := by
  intro s at_
  obtain ⟨s₁, run, moved, same⟩ := at_.advance
  obtain ⟨i, s₂, added, after, grows, is⟩ := moved.addSpanned
    (k := .token .identifier) (r := .identifier w.value) rfl (offset + byteLength w.margin)
    (offset + w.size)
  refine ⟨i, s₂, ?_, after, same ▸ grows, is⟩
  rw [takeIdentifier, run_bind at_.tokenStart, run_bind at_.tokenEnd, run_bind at_.tokenValue,
    run_bind run]
  exact added

theorem reads_literal {w : Word} {k : LiteralKind} (literal : w.kind = .literal k) :
    Reads takeLiteral offset (w :: ws) c depth (offset + w.size) ws
      (fun i t => t.IsLiteral i k w.value) b := by
  intro s at_
  obtain ⟨s₁, run, moved, same⟩ := at_.advance
  obtain ⟨i, s₂, added, after, grows, is⟩ := moved.addSpanned
    (k := .token (.literal k)) (r := .literal w.value (some s.lexer.tokenText)) rfl
    (offset + byteLength w.margin) (offset + w.size)
  refine ⟨i, s₂, ?_, after, same ▸ grows, _, _, _, is⟩
  have text : tokenText s = (s.lexer.tokenText, s) := rfl
  rw [takeLiteral, run_bind at_.kind, run_bind at_.tokenStart, run_bind at_.tokenEnd,
    run_bind at_.tokenValue, run_bind text, run_bind run, headKind, literal]
  exact added

theorem reads_takeLiteral (s : PlainText) (blank : Bool) :
    Reads takeLiteral offset (s.word blank :: ws) c depth (offset + (s.word blank).size) ws
      fun i t => t.IsString i s.text :=
  reads_literal rfl

theorem reads_identifierName (n : AsciiName) (blank : Bool) :
    Reads identifierName offset (n.word blank :: ws) c depth (offset + (n.word blank).size) ws
      fun i t => t.IsName i n.text := by
  intro s at_
  obtain ⟨i, s', run, after, grows, is⟩ := reads_takeIdentifier s at_
  refine ⟨i, s', ?_, after, grows, _, _, is⟩
  rw [identifierName, run_bind at_.kind]
  change (if n.kind = _ then _ else if n.kind.isIdentifierOrWord = true then _ else _ :
    Parser Child) s = _
  have notPrivate : n.kind ≠ .privateIdentifier := by
    unfold AsciiName.kind
    split <;> exact nofun
  have named : n.kind.isIdentifierOrWord = true := by
    unfold AsciiName.kind
    split <;> rfl
  rw [if_neg notPrivate, if_pos named]
  exact run

/-! ### Links -/

/-- Whether strings in brackets are read, `depth` levels deep. -/
def ReadsKeys (sub : PhraseParser) (c : Context) (depth : Nat) : Prop :=
  ∀ (s : PlainText) (offset : Nat) (ws : List Word), headKind ws = .mark .closeBracket →
    Reads (sub .assignment) offset (s.word false :: ws) c.allowIn depth
      (offset + (s.word false).size) ws fun i t => t.IsString i s.text

variable {start : Nat} {s : ParserState}

theorem run_propertyAccess (n : AsciiName) (at_ : At offset (n.word false :: ws) c depth s)
    (flags start e : Nat) (isOptional : Bool) :
    ∃ i s', propertyAccess flags start (some e) isOptional s = (some i, s') ∧
      At (offset + (n.word false).size) ws c depth s' ∧ s.tree.Extends s'.tree ∧
      s'.tree.IsLink i e (.name isOptional n) start (offset + (n.word false).size) := by
  obtain ⟨k, s₁, run₁, at₁, grows₁, name⟩ := reads_identifierName n false s at_
  obtain ⟨i, s₂, run₂, at₂, grows₂, is⟩ := at₁.add (k := .propertyAccess)
    (r := .access (some e) (some k) isOptional) rfl flags start
  have key : s₁.tree.IsKey k (.name isOptional n) := name
  refine ⟨i, s₂, ?_, at₂, grows₁.trans grows₂, k, key.of_extends grows₂, is⟩
  rw [propertyAccess, run_bind run₁]
  exact run₂

theorem run_elementAccess (keys : ReadsKeys sub c depth) (p : PlainText)
    (at_ : At offset (markWord .openBracket false :: p.word false ::
      markWord .closeBracket false :: ws) c depth s) (flags start e : Nat) (isOptional : Bool) :
    ∃ i s', elementAccess sub flags start (some e) isOptional s = (some i, s') ∧
      At (offset + (markWord .openBracket false).size + (p.word false).size +
        (markWord .closeBracket false).size) ws c depth s' ∧ s.tree.Extends s'.tree ∧
      s'.tree.IsLink i e (.key isOptional p) start (offset + (markWord .openBracket false).size +
        (p.word false).size + (markWord .closeBracket false).size) := by
  obtain ⟨s₁, run₁, at₁, same₁⟩ := at_.expectMark
  have key := keys p (offset + (markWord .openBracket false).size)
    (markWord .closeBracket false :: ws) rfl
  obtain ⟨k, s₂, run₂, at₂, grows₂, string⟩ := (reads_expression rfl key).within s₁ at₁
  obtain ⟨s₃, run₃, at₃, same₃⟩ := at₂.expectMark
  obtain ⟨i, s₄, run₄, at₄, grows₄, is⟩ := at₃.add (k := .elementAccess)
    (r := .access (some e) (some k) isOptional) rfl flags start
  rw [same₁] at grows₂
  rw [same₃] at grows₄
  have key : s₂.tree.IsKey k (.key isOptional p) := string
  refine ⟨i, s₄, ?_, at₄, grows₂.trans grows₄, k, key.of_extends grows₄, is⟩
  rw [elementAccess, run_bind run₁, run_bind run₂, run_bind run₃]
  exact run₄

theorem linkStep_optional {blank : Bool} {start e i : Nat} {s₁ s₂ : ParserState}
    (at_ : At offset (markWord .questionDot blank :: ws) c depth s)
    (run₁ : advance s = ((), s₁)) (run₂ : optionalLink sub start (some e) s₁ = (some i, s₂))
    (chained : Bool) : linkStep sub start true (some e, chained) s = (.yield (some i, true), s₂) := by
  change ((kind >>= fun _ => _) : Parser (ForInStep (Child × Bool))) s = _
  rw [run_bind at_.kind]
  change ((advance >>= fun _ => _) : Parser (ForInStep (Child × Bool))) s = _
  rw [run_bind run₁, run_bind run₂]
  rfl

theorem run_linkStep (keys : ReadsKeys sub c depth) (l : Link)
    (at_ : At offset (l.words ++ ws) c depth s) (start e : Nat) (chained : Bool) :
    ∃ i s', linkStep sub start true (some e, chained) s =
        (.yield (some i, chained || l.isOptional), s') ∧
      At (offset + byteLength l.chars) ws c depth s' ∧ s.tree.Extends s'.tree ∧
      s'.tree.IsLink i e l start (offset + byteLength l.chars) := by
  have size : byteLength l.chars = (l.words.map Word.size).sum := by
    rw [← l.spelled_words, byteLength_spelled]
  rw [size]
  cases l with
  | name isOptional n =>
    cases isOptional with
    | false =>
      obtain ⟨s₁, run₁, at₁, same₁⟩ := at_.advance
      obtain ⟨i, s₂, run₂, at₂, grows₂, link⟩ := run_propertyAccess n at₁
        (if chained then NodeFlag.optionalChain else 0) start e false
      rw [Nat.add_assoc] at at₂ link
      refine ⟨i, s₂, ?_, at₂, same₁ ▸ grows₂, link⟩
      change ((kind >>= fun _ => _) : Parser (ForInStep (Child × Bool))) s = _
      rw [run_bind at_.kind]
      change ((advance >>= fun _ => _) : Parser (ForInStep (Child × Bool))) s = _
      rw [run_bind run₁, run_bind run₂, Link.isOptional, Bool.or_false]
      rfl
    | true =>
      obtain ⟨s₁, run₁, at₁, same₁⟩ := at_.advance
      obtain ⟨i, s₂, run₂, at₂, grows₂, link⟩ := run_propertyAccess n at₁
        NodeFlag.optionalChain start e true
      rw [Nat.add_assoc] at at₂ link
      refine ⟨i, s₂, ?_, at₂, same₁ ▸ grows₂, link⟩
      rw [Link.isOptional, Bool.or_true]
      refine linkStep_optional at_ run₁ ?_ chained
      rw [optionalLink, run_bind at₁.kind]
      simp only [AsciiName.word, AsciiName.kind]
      cases Keyword.ofText? n.text <;> exact run₂
  | key isOptional p =>
    cases isOptional with
    | false =>
      obtain ⟨i, s₁, run₁, at₁, grows₁, link⟩ := run_elementAccess keys p at_
        (if chained then NodeFlag.optionalChain else 0) start e false
      rw [Nat.add_assoc, Nat.add_assoc] at at₁ link
      refine ⟨i, s₁, ?_, at₁, grows₁, link⟩
      change ((kind >>= fun _ => _) : Parser (ForInStep (Child × Bool))) s = _
      rw [run_bind at_.kind]
      change ((elementAccess _ _ _ _ _ >>= fun _ => _) : Parser (ForInStep (Child × Bool))) s = _
      rw [run_bind run₁, Link.isOptional, Bool.or_false]
      rfl
    | true =>
      obtain ⟨s₁, run₁, at₁, same₁⟩ := at_.advance
      obtain ⟨i, s₂, run₂, at₂, grows₂, link⟩ := run_elementAccess keys p at₁
        NodeFlag.optionalChain start e true
      rw [Nat.add_assoc, Nat.add_assoc, Nat.add_assoc] at at₂ link
      refine ⟨i, s₂, ?_, at₂, same₁ ▸ grows₂, link⟩
      rw [Link.isOptional, Bool.or_true]
      refine linkStep_optional at_ run₁ ?_ chained
      rw [optionalLink, run_bind at₁.kind]
      exact run₂

theorem linkStep_done (at_ : At offset ws c depth s b) (ends : endsOperand (headKind ws b) = true)
    (start : Nat) (acc : Child × Bool) : linkStep sub start true acc s = (.done acc, s) := by
  change ((kind >>= fun _ => _) : Parser (ForInStep (Child × Bool))) s = _
  rw [run_bind at_.kind]
  generalize headKind ws b = k at ends
  -- whatever a link begins with ends no operand
  split <;> first | rfl | cases ends

/-- All links of a chain, up to something that nothing goes on behind. -/
theorem run_links (keys : ReadsKeys sub c depth) (stop : isStop (headKind ws) = true)
    {base : AsciiName} (bound : List Char) {links : List Link} (enough : links.length ≤ bound.length)
    {before : List Link} {start e : Nat} (chained : Bool)
    (at_ : At (start + byteLength (Chain.charsOf base before)) (links.flatMap Link.words ++ ws) c
      depth s)
    (chain : s.tree.Chained start base before e) :
    ∃ i isOptional s', repeatWithin (linkStep sub start true) bound (some e, chained) s =
        ((some i, isOptional), s') ∧
      At (start + byteLength (Chain.charsOf base (before ++ links))) ws c depth s' ∧
      s.tree.Extends s'.tree ∧ s'.tree.Chained start base (before ++ links) i := by
  induction links generalizing bound before e chained s with
  | nil =>
    rw [List.append_nil]
    refine ⟨e, chained, s, ?_, at_, .refl _, chain⟩
    exact run_repeatWithin_done (linkStep_done at_ (endsOperand_of_stop stop) start _) bound
  | cons l links ih =>
    cases bound with
    | nil => cases enough
    | cons b bound =>
      rw [List.flatMap_cons, List.append_assoc] at at_
      obtain ⟨e₁, s₁, run₁, at₁, grows₁, link⟩ := run_linkStep keys l at_ start e chained
      have size : start + byteLength (Chain.charsOf base before) + byteLength l.chars =
          start + byteLength (Chain.charsOf base (before ++ [l])) := by
        rw [Chain.charsOf_append, byteLength_append, Nat.add_assoc]
      rw [size] at at₁ link
      have longer : s₁.tree.Chained start base (before ++ [l]) e₁ :=
        .link (chain.of_extends grows₁) link
      obtain ⟨i, isOptional, s', run, after, grows, whole⟩ := ih bound
        (Nat.le_of_succ_le_succ enough) (chained || l.isOptional) at₁ longer
      rw [List.append_assoc, List.singleton_append] at after whole
      refine ⟨i, isOptional, s', ?_, after, grows₁.trans grows, whole⟩
      rw [repeatWithin, run_bind run₁]
      exact run

theorem length_le_words (links : List Link) : links.length ≤ (links.flatMap Link.words).length := by
  induction links with
  | nil => exact Nat.le_refl 0
  | cons l links ih =>
    have some_ : 1 ≤ l.words.length := by
      cases l with
      | name isOptional n => cases isOptional <;> exact Nat.le_add_left 1 _
      | key isOptional p => cases isOptional <;> exact Nat.le_add_left 1 _
    rw [List.flatMap_cons, List.length_append, List.length_cons]
    omega

theorem reads_identifier {w : Word} (plain : w.kind = .identifier) :
    Reads identifier offset (w :: ws) c depth (offset + w.size) ws (fun i t =>
      t.Is i (.token .identifier) (offset + byteLength w.margin) (offset + w.size)
        (.identifier w.value)) b := by
  intro s at_
  obtain ⟨i, s', run, after, grows, is⟩ := reads_takeIdentifier s at_
  refine ⟨i, s', ?_, after, grows, is⟩
  have named : isNameIn c (headKind (w :: ws) b) = true := by
    rw [headKind, plain]
    rfl
  rw [identifier, run_bind at_.atIdentifier, named]
  exact run

theorem run_primary {w : Word} (plain : w.kind = .identifier)
    (at_ : At offset (w :: ws) c depth s b) : primary sub s = identifier s := by
  have named : isNameIn c (headKind (w :: ws) b) = true := by
    rw [headKind, plain]
    rfl
  rw [primary, run_bind at_.kind, headKind, plain]
  change nameOrReport s = _
  rw [nameOrReport, run_bind at_.atIdentifier, named]
  rfl

theorem run_leftHandSide {w : Word} {e i : Nat} {isOptional : Bool} {s₁ s₂ : ParserState}
    (at_ : At offset (w :: ws) c depth s b) (other : w.kind ≠ .word .newWord)
    (run₁ : primary sub s = (some e, s₁))
    (run₂ : repeating (linkStep sub (offset + byteLength w.margin) true) (some e, false) s₁ =
      ((some i, isOptional), s₂)) :
    leftHandSide sub s = (some i, s₂) := by
  have notNew : (headKind (w :: ws) b == .word .newWord) = false := beq_false_of_ne other
  rw [leftHandSide, run_bind at_.tokenStart, run_bind (at_.atWord .newWord), notNew,
    if_neg Bool.false_ne_true, run_bind run₁]
  change ((repeating _ _ >>= fun _ => _) : Parser Child) s₁ = _
  rw [run_bind run₂]
  rfl

theorem reads_chain (keys : ReadsKeys sub c depth) (chain : Chain) (blank : Bool)
    (stop : isStop (headKind ws) = true) :
    Reads (leftHandSide sub) offset (chain.words blank ++ ws) c depth
      (offset + byteLength (chain.base.word blank).margin + byteLength chain.chars) ws
      fun i t => t.Chained (offset + byteLength (chain.base.word blank).margin) chain.base
        chain.links i := by
  intro s at_
  have first : At offset (chain.base.word blank :: (chain.links.flatMap Link.words ++ ws)) c depth s :=
    at_
  obtain ⟨e, s₁, run₁, at₁, grows₁, name⟩ := reads_identifier chain.free.kind_eq s first
  obtain ⟨left, textLeft, enough⟩ := at₁.textLeft
  rw [List.length_append] at enough
  have few := length_le_words chain.links
  have behind : offset + (chain.base.word blank).size =
      offset + byteLength (chain.base.word blank).margin +
        byteLength (Chain.charsOf chain.base []) := by
    rw [Word.size, Nat.add_assoc, Chain.charsOf, List.flatMap_nil, List.append_nil]
    rfl
  rw [behind] at at₁
  have name_ : s₁.tree.Chained (offset + byteLength (chain.base.word blank).margin) chain.base [] e :=
    .base (by rwa [Word.size, ← Nat.add_assoc] at name)
  have room : chain.links.length ≤ left.length := by omega
  obtain ⟨i, isOptional, s₂, run₂, at₂, grows₂, whole⟩ :=
    run_links keys stop left room false at₁ name_
  rw [List.nil_append] at at₂ whole
  refine ⟨i, s₂, ?_, at₂, grows₁.trans grows₂, whole⟩
  have kind : chain.base.kind ≠ .word .newWord := by
    rw [chain.free.kind_eq]
    simp
  have all : repeating (linkStep sub (offset + byteLength (chain.base.word blank).margin) true)
      (some e, false) s₁ = ((some i, isOptional), s₂) := by
    rw [repeating, run_bind textLeft]
    exact run₂
  exact run_leftHandSide first kind ((run_primary chain.free.kind_eq first).trans run₁) all

theorem reads_name {w : Word} (plain : w.kind = .identifier)
    (ends : endsOperand (headKind ws b) = true) :
    Reads (leftHandSide sub) offset (w :: ws) c depth (offset + w.size) ws (fun i t =>
      t.Is i (.token .identifier) (offset + byteLength w.margin) (offset + w.size)
        (.identifier w.value)) b := by
  intro s at_
  obtain ⟨i, s', run, after, grows, is⟩ := reads_identifier plain s at_
  refine ⟨i, s', ?_, after, grows, is⟩
  have notNew : w.kind ≠ .word .newWord := by
    rw [plain]
    exact nofun
  exact run_leftHandSide at_ notNew ((run_primary plain at_).trans run)
    (run_repeatWithin_done (linkStep_done after ends _ _) _)

theorem reads_string (p : PlainText) (blank : Bool) (stop : isStop (headKind ws) = true) :
    Reads (leftHandSide sub) offset (p.word blank :: ws) c depth (offset + (p.word blank).size) ws
      fun i t => t.IsString i p.text := by
  intro s at_
  obtain ⟨i, s', run, after, grows, is⟩ := reads_takeLiteral p blank s at_
  refine ⟨i, s', ?_, after, grows, is⟩
  have literal : primary sub s = (some i, s') := by
    rw [primary, run_bind at_.kind]
    exact run
  exact run_leftHandSide at_ nofun literal
    (run_repeatWithin_done (linkStep_done after (endsOperand_of_stop stop) _ _) _)

theorem readsKeys_phrase {fuel : Nat} (room : depth + 1 < maxDepth) :
    ReadsKeys (phrase (fuel + 1)) c depth := fun p _ _ bracket =>
  reads_assignment room rfl (by rw [bracket]; exact nofun) (by rw [bracket]; rfl)
    (reads_string p false (by rw [bracket]; rfl))

theorem headKind_links (links : List Link) (stop : isStop (headKind ws) = true) :
    headKind (links.flatMap Link.words ++ ws) ≠ .mark .arrow ∧
      headKind (links.flatMap Link.words ++ ws) ≠ .mark .colon := by
  cases links with
  | nil =>
    have last : headKind ws ≠ .mark .arrow ∧ headKind ws ≠ .mark .colon := by
      rcases isStop_cases stop with k | k | k | k | k <;> rw [k] <;> exact ⟨nofun, nofun⟩
    exact last
  | cons l links =>
    cases l with
    | name isOptional n => cases isOptional <;> exact ⟨nofun, nofun⟩
    | key isOptional p => cases isOptional <;> exact ⟨nofun, nofun⟩

theorem reads_chain_assignment {fuel : Nat} (room : depth + 3 < maxDepth) (chain : Chain)
    (blank : Bool) (stop : isStop (headKind ws) = true) :
    Reads (phrase (fuel + 2) .assignment) offset (chain.words blank ++ ws) c depth
      (offset + byteLength (chain.base.word blank).margin + byteLength chain.chars) ws
      fun i t => t.Chained (offset + byteLength (chain.base.word blank).margin) chain.base
        chain.links i := by
  have plain : isPlainStart (chain.base.word blank).kind = true := by
    change isPlainStart chain.base.kind = true
    rw [chain.free.kind_eq]
    rfl
  exact reads_assignment (by omega) plain (headKind_links chain.links stop).1 stop
    (reads_chain (readsKeys_phrase (by omega)) chain blank stop)

end Parser

end PathGuard
