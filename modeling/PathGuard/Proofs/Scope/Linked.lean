import PathGuard.Proofs.Scope.Declared
import PathGuard.Proofs.Scope.Open
/-!
# Symbols, tables and declarations

Each symbol stands in the table of one scope, under its own name, and has the identifiers that declare
it; each of these knows the symbol, and no other identifier does. The walk over a text declares no
identifier twice, since none of the steps that are left leads to one that was declared before, and no
two of them lead to the same one.
-/

namespace PathGuard

namespace Scopes

variable {t : Tree} {s s' : Scopes} {id : ScopeId} {name : String} {form : DeclarationForm}
  {node : NodeId}

def symbolAt? (s : Scopes) (id : ScopeId) (name : String) : Option SymbolId :=
  (s.scope? id).bind fun scope => scope.table[name]?

/-- Whether a symbol is what its declarations make of it: they are identifiers with its name, each of
them there once, which know the symbol, and the forms of the symbol are all of theirs. -/
structure Describes (s : Scopes) (t : Tree) (symbol : SymbolId) (data : Symbol) : Prop where
  identifiers : ∀ c ∈ data.declarations, ∃ i, c = some i ∧
    t.kind? (some i) = some (.token .identifier) ∧ t.identifierText? (some i) = some data.name ∧
    s.ofName[i]? = some symbol
  once : data.declarations.toList.Nodup
  forms : ∃ forms, List.Forall₂ (fun c form => ∃ d i, c = some i ∧ t.DeclaredBy d i form)
    data.declarations.toList forms ∧ data.forms = forms.foldl (fun bits form => bits ||| form.bit) 0

/-- Whether symbols, tables and declarations fit together. -/
structure Linked (s : Scopes) (t : Tree) : Prop where
  named : ∀ id name symbol, s.symbolAt? id name = some symbol →
    ∃ data, s.symbols.get? symbol = some data ∧ data.name = name
  placed : ∀ symbol data, s.symbols.get? symbol = some data →
    ∃! place : ScopeId × String, s.symbolAt? place.1 place.2 = some symbol
  declared : ∀ symbol data, s.symbols.get? symbol = some data → data.declarations ≠ #[]
  describes : ∀ symbol data, s.symbols.get? symbol = some data → s.Describes t symbol data
  arises : ∀ i symbol, s.ofName[i]? = some symbol →
    ∃ data, s.symbols.get? symbol = some data ∧ some i ∈ data.declarations

/-! ### One more declaration -/

/-- Whether a symbol is the one that a name in a scope has, or a new one without declarations for a
name that has none. -/
inductive Awaits (s : Scopes) (id : ScopeId) (name : String) (form : DeclarationForm)
    (symbol : SymbolId) (data : Symbol) : Prop where
  | known (here : s.symbolAt? id name = some symbol) (there : s.symbols.get? symbol = some data)
  | new (free : s.symbolAt? id name = none) (next : s.symbols.get? symbol = none)
      (blank : data = ⟨form.bit, name, #[]⟩)

/-- Whether a node is added to the declarations of a symbol, which stands under a name in a scope from
then on, and nothing else changes. -/
structure Adds (s s' : Scopes) (id : ScopeId) (name : String) (form : DeclarationForm) (node : NodeId)
    (symbol : SymbolId) (data : Symbol) : Prop where
  awaits : s.Awaits id name form symbol data
  get : ∀ k, s'.symbols.get? k =
    if k = symbol then some (data.declare form.bit (some node)) else s.symbols.get? k
  table : ∀ id' x, s'.symbolAt? id' x =
    if id' = id ∧ x = name then some symbol else s.symbolAt? id' x
  knows : ∀ i : NodeId, s'.ofName[i]? = if node = i then some symbol else s.ofName[i]?

theorem get?_declare (store : SymbolStore) (symbol : SymbolId) (forms : Nat) (node : Child)
    (k : SymbolId) : (store.declare symbol forms node).get? k =
      if k = symbol then (store.get? symbol).map (·.declare forms node) else store.get? k := by
  unfold SymbolStore.declare SymbolStore.get?
  rw [Array.getElem?_modify]
  by_cases same : k = symbol
  · rw [if_pos same.symm, if_pos same, same]
  · rw [if_neg fun same' => same same'.symm, if_neg same]

theorem get?_alloc (store : SymbolStore) (forms : Nat) (name : String) (k : SymbolId) :
    (store.alloc forms name).2.get? k =
      if k = store.symbols.size then some ⟨forms, name, #[]⟩ else store.get? k :=
  Array.getElem?_push

theorem symbolAt?_of_scope? {scope : Scope} (there : s.scope? id = some scope) (name : String) :
    s.symbolAt? id name = scope.table[name]? := by
  rw [symbolAt?, there, Option.bind_some]

theorem Linked.declareIn_adds (linked : s.Linked t) {scope : Scope} (there : s.scope? id = some scope)
    (form : DeclarationForm) (name : String) (node : NodeId) :
    ∃ symbol data, Adds s (s.declareIn id form name node) id name form node symbol data := by
  have knows (symbol : SymbolId) (i : NodeId) :
      (s.ofName.insert node symbol)[i]? = if node = i then some symbol else s.ofName[i]? := by
    rw [Std.TreeMap.getElem?_insert]
    simp only [Std.LawfulEqCmp.compare_eq_iff_eq]
  have at_ := symbolAt?_of_scope? there name
  unfold declareIn symbolFor
  simp only [there]
  cases known : scope.table[name]? with
  | some symbol =>
    rw [known] at at_
    obtain ⟨data, got, -⟩ := linked.named id name symbol at_
    refine ⟨symbol, data, .known at_ got, fun k => ?_, fun id' x => ?_, knows symbol⟩
    · rw [get?_declare, got, Option.map_some]
    · by_cases here : id' = id ∧ x = name
      · rw [if_pos here, here.1, here.2]
        exact at_
      · rw [if_neg here]
        rfl
  | none =>
    rw [known] at at_
    have fresh : s.symbols.get? s.symbols.symbols.size = none :=
      Array.getElem?_eq_none (Nat.le_refl _)
    refine ⟨s.symbols.symbols.size, _, .new at_ fresh rfl, fun k => ?_, fun id' x => ?_, knows _⟩
    · show ((s.symbols.alloc form.bit name).2.declare s.symbols.symbols.size form.bit
        (some node)).get? k = _
      rw [get?_declare, get?_alloc, if_pos rfl, Option.map_some, get?_alloc]
      by_cases last : k = s.symbols.symbols.size
      · rw [if_pos last, if_pos last]
      · rw [if_neg last, if_neg last, if_neg last]
    · have old : s.scopes[id]? = some scope := there
      simp only [symbolAt?, scope?, Array.getElem?_modify, SymbolStore.alloc]
      by_cases here : id' = id
      · rw [here, if_pos rfl, old, Option.map_some, Option.bind_some, Std.TreeMap.getElem?_insert]
        simp only [Std.LawfulEqCmp.compare_eq_iff_eq, true_and, eq_comm (a := name),
          Option.bind_some]
      · rw [if_neg fun same => here same.symm, if_neg fun same => here same.1]

/-! ### Keeping them together -/

section Adds

variable {symbol : SymbolId} {data : Symbol}

theorem Linked.place_of_awaits (linked : s.Linked t) (awaits : s.Awaits id name form symbol data)
    {id' : ScopeId} {x : String} {k : SymbolId} (at_ : s.symbolAt? id' x = some k) :
    k = symbol ↔ id' = id ∧ x = name := by
  cases awaits with
  | known here there =>
    obtain ⟨place, -, only⟩ := linked.placed symbol data there
    constructor
    · rintro rfl
      have same := (only (id', x) at_).trans (only (id, name) here).symm
      exact Prod.mk.inj same
    · rintro ⟨rfl, rfl⟩
      exact Option.some.inj (at_.symm.trans here)
  | new free next blank =>
    constructor
    · rintro rfl
      obtain ⟨data, got, -⟩ := linked.named id' x k at_
      rw [next] at got
      cases got
    · rintro ⟨rfl, rfl⟩
      rw [free] at at_
      cases at_

theorem Linked.data_of_awaits (linked : s.Linked t) (awaits : s.Awaits id name form symbol data) :
    data.name = name ∧ (∀ found, s.symbols.get? symbol = some found → found = data) ∧
      (∀ c ∈ data.declarations, ∃ i, c = some i ∧ t.kind? (some i) = some (.token .identifier) ∧
        t.identifierText? (some i) = some name ∧ s.ofName[i]? = some symbol) ∧
      data.declarations.toList.Nodup ∧
      ∃ forms, List.Forall₂ (fun c form => ∃ d i, c = some i ∧ t.DeclaredBy d i form)
        data.declarations.toList forms ∧ data.forms ||| form.bit =
          (forms ++ [form]).foldl (fun bits form => bits ||| form.bit) 0 := by
  cases awaits with
  | known here there =>
    obtain ⟨found, got, rfl⟩ := linked.named id name symbol here
    obtain rfl := Option.some.inj (got.symm.trans there)
    obtain ⟨identifiers, once, forms, alike, all⟩ := linked.describes symbol found got
    refine ⟨rfl, fun other got' => ?_, identifiers, once, forms, alike, ?_⟩
    · exact Option.some.inj (got'.symm.trans got)
    · rw [List.foldl_append, ← all]
      rfl
  | new free next blank =>
    subst blank
    refine ⟨rfl, fun other got => ?_, nofun, List.nodup_nil, [], .nil, ?_⟩
    · rw [next] at got
      cases got
    · exact (Nat.or_self _).trans (Nat.zero_or _).symm

variable (linked : s.Linked t) (adds : Adds s s' id name form node symbol data)
include linked adds

theorem Adds.named {id' : ScopeId} {x : String} {k : SymbolId} (at_ : s'.symbolAt? id' x = some k) :
    ∃ found, s'.symbols.get? k = some found ∧ found.name = x := by
  obtain ⟨sameName, -⟩ := linked.data_of_awaits adds.awaits
  rw [adds.table] at at_
  rw [adds.get]
  split at at_
  · next here =>
    rw [if_pos (Option.some.inj at_).symm]
    exact ⟨_, rfl, sameName.trans here.2.symm⟩
  · next other =>
    have apart : k ≠ symbol := fun same => other ((linked.place_of_awaits adds.awaits at_).1 same)
    rw [if_neg apart]
    exact linked.named id' x k at_

theorem Adds.placed {k : SymbolId} {found : Symbol} (got : s'.symbols.get? k = some found) :
    ∃! place : ScopeId × String, s'.symbolAt? place.1 place.2 = some k := by
  rw [adds.get] at got
  split at got
  · next same =>
    subst same
    refine ⟨(id, name), (adds.table id name).trans (if_pos ⟨rfl, rfl⟩), ?_⟩
    intro ⟨id', x⟩ (at_ : s'.symbolAt? id' x = some k)
    rw [adds.table] at at_
    split at at_
    · next here => rw [here.1, here.2]
    · obtain ⟨rfl, rfl⟩ := (linked.place_of_awaits adds.awaits at_).1 rfl
      rfl
  · next other =>
    obtain ⟨⟨id', x⟩, at_, only⟩ := linked.placed k found got
    have elsewhere : ¬(id' = id ∧ x = name) :=
      fun here => other ((linked.place_of_awaits adds.awaits at_).2 here)
    refine ⟨(id', x), (adds.table id' x).trans ((if_neg elsewhere).trans at_), ?_⟩
    intro ⟨id'', y⟩ (at' : s'.symbolAt? id'' y = some k)
    rw [adds.table] at at'
    split at at'
    · exact absurd (Option.some.inj at').symm other
    · exact only (id'', y) at'

theorem Adds.arises {i : NodeId} {k : SymbolId} (known : s'.ofName[i]? = some k) :
    ∃ found, s'.symbols.get? k = some found ∧ some i ∈ found.declarations := by
  obtain ⟨-, only, -⟩ := linked.data_of_awaits adds.awaits
  rw [adds.knows] at known
  rw [adds.get]
  split at known
  · next same =>
    rw [if_pos (Option.some.inj known).symm, ← same]
    exact ⟨_, rfl, Array.mem_push_self⟩
  · obtain ⟨found, got, listed⟩ := linked.arises i k known
    by_cases same : k = symbol
    · obtain rfl := only found (same ▸ got)
      rw [if_pos same]
      exact ⟨_, rfl, Array.mem_push_of_mem _ listed⟩
    · rw [if_neg same]
      exact ⟨found, got, listed⟩

theorem Adds.describes {d : NodeId} (declares : t.DeclaredBy d node form)
    (kind : t.kind? (some node) = some (.token .identifier))
    (text : t.identifierText? (some node) = some name) (fresh : s.ofName[node]? = none)
    {k : SymbolId} {found : Symbol} (got : s'.symbols.get? k = some found) :
    s'.Describes t k found := by
  obtain ⟨sameName, -, identifiers, once, forms, alike, all⟩ := linked.data_of_awaits adds.awaits
  have kept {i : NodeId} {k : SymbolId} (known : s.ofName[i]? = some k) : s'.ofName[i]? = some k := by
    rw [adds.knows, if_neg, known]
    rintro rfl
    rw [fresh] at known
    cases known
  rw [adds.get] at got
  -- one symbol is declared once more, and all others are as they were
  split at got
  · next same =>
    subst same
    obtain rfl := Option.some.inj got
    have all_ : (data.declare form.bit (some node)).declarations.toList =
        data.declarations.toList ++ [some node] := Array.toList_push
    constructor
    · intro c listed
      rw [← Array.mem_toList_iff, all_, List.mem_append, List.mem_singleton] at listed
      rcases listed with old | rfl
      · obtain ⟨i, same, isName, text', known⟩ := identifiers c (Array.mem_toList_iff.1 old)
        exact ⟨i, same, isName, text'.trans (congrArg some sameName.symm), kept known⟩
      · exact ⟨node, rfl, kind, text.trans (congrArg some sameName.symm),
          (adds.knows node).trans (if_pos rfl)⟩
    · rw [all_, List.nodup_append]
      refine ⟨once, List.nodup_singleton _, fun c old c' last => ?_⟩
      rintro rfl
      obtain ⟨i, same, -, -, known⟩ := identifiers c (Array.mem_toList_iff.1 old)
      obtain rfl := Option.some.inj ((List.mem_singleton.1 last).symm.trans same)
      rw [fresh] at known
      cases known
    · rw [all_]
      exact ⟨forms ++ [form], List.rel_append alike (.cons ⟨d, node, rfl, declares⟩ .nil), all⟩
  · obtain ⟨identifiers', once', forms'⟩ := linked.describes k found got
    refine ⟨fun c listed => ?_, once', forms'⟩
    obtain ⟨i, same, isName, text', known⟩ := identifiers' c listed
    exact ⟨i, same, isName, text', kept known⟩

theorem Adds.declared {k : SymbolId} {found : Symbol} (got : s'.symbols.get? k = some found) :
    found.declarations ≠ #[] := by
  rw [adds.get] at got
  split at got
  · obtain rfl := Option.some.inj got
    exact Array.push_ne_empty
  · exact linked.declared k found got

end Adds

theorem Linked.declareIn (linked : s.Linked t) {d : NodeId} (declares : t.DeclaredBy d node form)
    (kind : t.kind? (some node) = some (.token .identifier))
    (text : t.identifierText? (some node) = some name) (fresh : s.ofName[node]? = none) :
    (s.declareIn id form name node).Linked t := by
  cases there : s.scope? id with
  | none =>
    unfold Scopes.declareIn
    rw [there]
    exact linked
  | some scope =>
    obtain ⟨symbol, data, adds⟩ := linked.declareIn_adds there form name node
    exact {
      named := fun _ _ _ => adds.named linked
      placed := fun _ _ => adds.placed linked
      declared := fun _ _ => adds.declared linked
      describes := fun _ _ => adds.describes linked declares kind text fresh
      arises := fun _ _ => adds.arises linked }

theorem Linked.declare (sound : t.Sound) (linked : s.Linked t) {e : Declaration} {d : NodeId}
    (declares : t.DeclaredBy d e.name e.form) (fresh : s.ofName[e.name]? = none) :
    (s.declare t e).Linked t := by
  unfold Scopes.declare
  split
  · next text _ => exact linked.declareIn declares (sound.kind?_of_declaredBy declares) text fresh
  · exact linked

theorem ofName_symbolFor (s : Scopes) (id : ScopeId) (scope : Scope) (forms : Nat) (name : String) :
    (s.symbolFor id scope forms name).2.ofName = s.ofName := by
  unfold symbolFor
  split <;> rfl

theorem ofName_declare {e : Declaration} {i : NodeId} (other : e.name ≠ i) :
    (s.declare t e).ofName[i]? = s.ofName[i]? := by
  unfold declare
  split
  · next name id _ _ =>
    unfold Scopes.declareIn
    split
    · rfl
    · next scope _ =>
      show ((s.symbolFor id scope e.form.bit name).2.ofName.insert e.name _)[i]? = _
      rw [Std.TreeMap.getElem?_insert, ofName_symbolFor, if_neg]
      simpa only [Std.LawfulEqCmp.compare_eq_iff_eq] using other
  · rfl

theorem ofName_declareAll {ds : List Declaration} {i : NodeId}
    (other : i ∉ ds.map Declaration.name) : (s.declareAll t ds).ofName[i]? = s.ofName[i]? := by
  induction ds generalizing s with
  | nil => rfl
  | cons e ds ih =>
    rw [List.map_cons, List.mem_cons, not_or] at other
    exact (ih other.2).trans (ofName_declare (Ne.symm other.1))

theorem Linked.declareAll (sound : t.Sound) (linked : s.Linked t) {ds : List Declaration}
    (declares : ∀ e ∈ ds, ∃ d, t.DeclaredBy d e.name e.form)
    (once : (ds.map Declaration.name).Nodup) (fresh : ∀ e ∈ ds, s.ofName[e.name]? = none) :
    (s.declareAll t ds).Linked t := by
  induction ds generalizing s with
  | nil => exact linked
  | cons e ds ih =>
    rw [List.map_cons, List.nodup_cons] at once
    obtain ⟨d, first⟩ := declares e (List.mem_cons_self ..)
    refine ih (linked.declare sound first (fresh e (List.mem_cons_self ..)))
      (fun e' he' => declares e' (List.mem_cons_of_mem _ he')) once.2 fun e' he' => ?_
    rw [ofName_declare, fresh e' (List.mem_cons_of_mem _ he')]
    intro same
    exact once.1 (same ▸ List.mem_map_of_mem he')

/-! ### Opening and closing -/

theorem Linked.of_same (linked : s.Linked t)
    (table : ∀ id x, s'.symbolAt? id x = s.symbolAt? id x) (symbols : s'.symbols = s.symbols)
    (ofName : s'.ofName = s.ofName) : s'.Linked t where
  named := by
    intro id x symbol at_
    rw [symbols]
    exact linked.named id x symbol (table id x ▸ at_)
  placed := by
    intro symbol data got
    simp only [table]
    exact linked.placed symbol data (symbols ▸ got)
  declared := fun symbol data got => linked.declared symbol data (symbols ▸ got)
  describes := by
    intro symbol data got
    obtain ⟨identifiers, once, forms⟩ := linked.describes symbol data (symbols ▸ got)
    exact ⟨ofName ▸ identifiers, once, forms⟩
  arises := by
    intro i symbol known
    rw [symbols]
    exact linked.arises i symbol (ofName ▸ known)

theorem Linked.enter (linked : s.Linked t) (kind : ScopeKind) (i : NodeId) :
    (s.enter kind i).Linked t := by
  refine linked.of_same (fun id x => ?_) rfl rfl
  rw [symbolAt?, scope?_enter]
  split
  · next last =>
    have none_ : s.scope? id = none := by
      rw [last]
      exact Array.getElem?_eq_none (Nat.le_refl _)
    rw [symbolAt?, none_, Option.bind_some, Option.bind_none, Std.TreeMap.getElem?_emptyc]
  · rfl

theorem Linked.leave (linked : s.Linked t) : s.leave.Linked t := by
  unfold Scopes.leave
  split
  · exact linked.of_same (fun _ _ => rfl) rfl rfl
  · exact linked

theorem Linked.shareCurrent (linked : s.Linked t) (i : NodeId) : (s.shareCurrent i).Linked t := by
  unfold Scopes.shareCurrent
  split
  · exact linked.of_same (fun _ _ => rfl) rfl rfl
  · exact linked

theorem Linked.enterNode (sound : t.Sound) (linked : s.Linked t) (kind : ScopeKind) {i : NodeId}
    (fresh : ∀ e ∈ t.innerDeclarations i, s.ofName[e.name]? = none) :
    (s.enterNode t kind i).Linked t := by
  have declared := (linked.enter kind i).declareAll sound
    (fun e he => ⟨i, Tree.declaredBy_of_innerDeclaration he⟩) (Tree.nodup_innerDeclarations i) fresh
  unfold Scopes.enterNode
  split
  · exact declared.shareCurrent _
  · exact declared

theorem ofName_leave (s : Scopes) : s.leave.ofName = s.ofName := by
  unfold leave
  split <;> rfl

theorem ofName_enterNode {kind : ScopeKind} {i j : NodeId}
    (other : j ∉ (t.innerDeclarations i).map Declaration.name) :
    (s.enterNode t kind i).ofName[j]? = s.ofName[j]? := by
  have declared : ((s.enter kind i).declareAll t (t.innerDeclarations i)).ofName[j]? = s.ofName[j]? :=
    ofName_declareAll other
  unfold enterNode shareCurrent
  split
  · simp only
    split
    · exact declared
    · exact declared
  · exact declared

/-! ### The walk -/

/-- Whether a step, or one that it leads to, declares an identifier. -/
inductive Tells (t : Tree) : BindStep → NodeId → Prop where
  | visit {c d i : NodeId} {e : Declaration} (below : t.Below c d) (listed : e ∈ t.allDeclarations d)
      (same : e.name = i) : Tells t (.visit (some c)) i
  | enter {kind : ScopeKind} {c i : NodeId} {e : Declaration} (listed : e ∈ t.innerDeclarations c)
      (same : e.name = i) : Tells t (.enter kind c) i

/-- Whether no identifier is declared by both of two steps. -/
def Apart (t : Tree) (a b : BindStep) : Prop := ∀ i, Tells t a i → ¬Tells t b i

theorem apart_visits (sound : t.Sound) {c c' : Child}
    (separate : ∀ a, c = some a → ∀ b, c' = some b → t.Separate a b) :
    Apart t (.visit c) (.visit c') := by
  intro i tells tells'
  cases tells with
  | visit below listed same =>
    cases tells' with
    | visit below' listed' same' =>
      obtain ⟨rfl, -⟩ := sound.declaration_unique listed listed' (same.trans same'.symm)
      exact separate _ rfl _ rfl _ below below'

theorem apart_leave (a : BindStep) : Apart t a .leave := by
  intro i _ tells
  cases tells

section Plans

variable {i : NodeId} {n : Node} {p : Plan}

theorem Tells.not_own (sound : t.Sound) (plan : t.Plans i n p) {c : Child} {j : NodeId}
    (looked : c ∈ p.outer ++ p.inner) (tells : Tells t (.visit c) j) :
    Tells t (.visit (some i)) j ∧ j ∉ (t.allDeclarations i).map Declaration.name := by
  cases tells with
  | @visit c d _ e below listed same =>
    obtain ⟨above, less⟩ := plan.below c (Plan.mem_visited.2 (List.mem_append.1 looked))
    refine ⟨.visit (above.trans below) listed same, fun own => ?_⟩
    obtain ⟨e', listed', same'⟩ := List.mem_map.1 own
    obtain ⟨rfl, -⟩ := sound.declaration_unique listed listed' (same.trans same'.symm)
    have := below.le sound
    omega

theorem tells_of_plan (sound : t.Sound) (plan : t.Plans i n p) {next : BindStep}
    (step : next ∈ p.steps i) {j : NodeId} (tells : Tells t next j) :
    Tells t (.visit (some i)) j ∧ j ∉ (t.declarations i).map Declaration.name := by
  have visit {c : Child} (looked : c ∈ p.outer ++ p.inner) (tells : Tells t (.visit c) j) :
      Tells t (.visit (some i)) j ∧ j ∉ (t.declarations i).map Declaration.name := by
    obtain ⟨above, notOwn⟩ := tells.not_own sound plan looked
    refine ⟨above, fun own => notOwn ?_⟩
    rw [Tree.allDeclarations, List.map_append]
    exact List.mem_append_left _ own
  rcases List.mem_append.1 step with before | opened
  · obtain ⟨c, looked, rfl⟩ := List.mem_map.1 before
    exact visit (List.mem_append_left _ looked) tells
  · unfold Plan.opened at opened
    split at opened
    · cases opened
    · rcases List.mem_cons.1 opened with rfl | inside
      · cases tells with
        | enter listed same =>
          refine ⟨.visit .self (List.mem_append_right _ listed) same, fun own => ?_⟩
          obtain ⟨e, he, -⟩ := List.mem_map.1 own
          rw [Tree.innerDeclarations_of_declarations he] at listed
          cases listed
      · rcases List.mem_append.1 inside with looked | last
        · obtain ⟨c, looked', rfl⟩ := List.mem_map.1 looked
          exact visit (List.mem_append_right _ looked') tells
        · obtain rfl := List.mem_singleton.1 last
          cases tells

theorem pairwise_apart (sound : t.Sound) (plan : t.Plans i n p) :
    (p.steps i).Pairwise (Apart t) := by
  have visits : ((p.outer ++ p.inner).map .visit).Pairwise (Apart t) := by
    rw [List.pairwise_map]
    refine (List.pairwise_filterMap.1 plan.apart).imp fun {c c'} separate => ?_
    exact apart_visits sound separate
  rw [List.map_append, List.pairwise_append] at visits
  obtain ⟨before, inside, between⟩ := visits
  -- the scope's own names are declared by the node, those inside by nodes below it
  have own {kind : ScopeKind} {c : Child} (looked : c ∈ p.outer ++ p.inner) {j : NodeId}
      (tells : Tells t (.visit c) j) : ¬Tells t (.enter kind i) j := by
    intro tells'
    obtain ⟨-, notOwn⟩ := tells.not_own sound plan looked
    cases tells' with
    | enter listed same =>
      exact notOwn (List.mem_map.2 ⟨_, List.mem_append_right _ listed, same⟩)
  unfold Plan.steps Plan.opened
  split
  · rw [List.append_nil]
    exact before
  · next kind _ =>
    rw [List.pairwise_append, scopeSteps, List.pairwise_cons, List.pairwise_append]
    refine ⟨before, ⟨fun next later j tells tells' => ?_, inside, List.pairwise_singleton _ _, ?_⟩,
      ?_⟩
    · rcases List.mem_append.1 later with looked | last
      · obtain ⟨c, looked', rfl⟩ := List.mem_map.1 looked
        exact own (List.mem_append_right _ looked') tells' tells
      · obtain rfl := List.mem_singleton.1 last
        cases tells'
    · intro a _ b last
      obtain rfl := List.mem_singleton.1 last
      exact apart_leave a
    · intro a looked b later
      obtain ⟨c, looked', rfl⟩ := List.mem_map.1 looked
      rcases List.mem_cons.1 later with rfl | later
      · exact fun j => own (List.mem_append_left _ looked')
      · rcases List.mem_append.1 later with looked'' | last
        · exact between _ looked _ looked''
        · obtain rfl := List.mem_singleton.1 last
          exact apart_leave _

end Plans

structure Telling (t : Tree) (steps : List BindStep) (s : Scopes) : Prop where
  linked : s.Linked t
  fresh : ∀ next ∈ steps, ∀ i, Tells t next i → s.ofName[i]? = none
  apart : steps.Pairwise (Apart t)

variable {next : BindStep} {rest : List BindStep}

theorem Telling.step (sound : t.Sound) (walking : Walking t (next :: rest) s)
    (h : Telling t (next :: rest) s) : Telling t ((s.step t next).1 ++ rest) (s.step t next).2 := by
  obtain ⟨linked, fresh, apart⟩ := h
  obtain ⟨first, later⟩ := List.pairwise_cons.1 apart
  have here (i : NodeId) := fresh next (List.mem_cons_self ..) i
  have behind (other : BindStep) (waits : other ∈ rest) (i : NodeId) :=
    fresh other (List.mem_cons_of_mem _ waits) i
  cases next with
  | leave =>
    refine ⟨linked.leave, fun other waits i tells => ?_, later⟩
    rw [show (s.step t .leave).2 = s.leave from rfl, ofName_leave]
    exact behind other waits i tells
  | enter kind c =>
    refine ⟨linked.enterNode sound kind fun e he => here _ (.enter he rfl),
      fun other waits i tells => ?_, later⟩
    refine (ofName_enterNode fun own => ?_).trans (behind other waits i tells)
    obtain ⟨e, he, same⟩ := List.mem_map.1 own
    exact first other waits i (.enter he same) tells
  | visit c =>
    cases c with
    | none => exact ⟨linked, behind, later⟩
    | some c =>
      obtain ⟨-, os, -, fits⟩ := walking
      cases fits with
      | visit hn notFile whole looked waits more =>
        obtain ⟨p, steps, plan⟩ := sound.exists_plan hn notFile whole
        obtain ⟨parent, owned⟩ : ∃ p, t.parent (some c) = some p := by
          cases looked with
          | inside parent | named parent | further parent => exact ⟨_, parent⟩
        have outer {e : Declaration} (he : e ∈ t.declarations c) : Tells t (.visit (some c)) e.name :=
          .visit .self (List.mem_append_left _ he) rfl
        have once : ((t.declarations c).map Declaration.name).Nodup := by
          have all := sound.nodup_allDeclarations c
          rw [Tree.allDeclarations, List.map_append] at all
          exact (List.nodup_append.1 all).1
        have kept {i : NodeId} (other : i ∉ (t.declarations c).map Declaration.name)
            (unknown : s.ofName[i]? = none) :
            (s.declareAll t (t.declarations c)).ofName[i]? = none :=
          (ofName_declareAll other).trans unknown
        -- what the node declares was told by this step, so no step that waits tells it as well
        refine ⟨linked.declareAll sound (fun e he => ⟨c, sound.declaredBy_of_declaration owned he⟩)
          once fun e he => here _ (outer he), fun other waits i tells => ?_, ?_⟩
        · rcases List.mem_append.1 waits with own | waits
          · obtain ⟨above, notOwn⟩ := tells_of_plan sound plan (steps ▸ own) tells
            exact kept notOwn (here i above)
          · refine kept (fun own => ?_) (behind other waits i tells)
            obtain ⟨e, he, rfl⟩ := List.mem_map.1 own
            exact first other waits _ (outer he) tells
        · show (t.steps c ++ rest).Pairwise (Apart t)
          rw [steps, List.pairwise_append]
          refine ⟨pairwise_apart sound plan, later, fun a own b waits i tells => ?_⟩
          exact first b waits i (tells_of_plan sound plan own tells).1

theorem Telling.leads (sound : t.Sound) {k : Nat} {l l' : List BindStep} (walking : Walking t l s)
    (h : Telling t l s) (leads : Leads t k l s l' s') : Telling t l' s' := by
  induction leads with
  | here => exact h
  | step onwards ih => exact ih (walking.step sound) (h.step sound walking)

/-! ### The whole text -/

theorem linked_empty (t : Tree) : empty.Linked t := by
  constructor <;> intros <;> contradiction

theorem ofTree_linked (sound : t.Sound) {i : Nat} {n : Node} (hn : t.nodes[i]? = some n)
    (file : n.kind = .sourceFile) (top : t.parent (some i) = none) :
    (ofTree t (some i)).Linked t := by
  obtain ⟨r, construct, shape⟩ := sound.construct_of_shape hn (congrArg NodeKind.shape? file)
  cases r <;> cases shape
  next statements endOfFile fileName =>
  obtain ⟨⟨steps, leads⟩, -⟩ := leads_ofTree sound hn file construct
  have plan := Tree.plans_file sound hn construct file
  have start : Telling t (BindStep.ofFile i statements) .empty := by
    refine ⟨linked_empty t, fun next _ j _ => Std.TreeMap.getElem?_emptyc, ?_⟩
    exact pairwise_apart sound plan
  exact (start.leads sound (walking_start sound hn file top construct) leads).linked

/-- No node is declared twice, by the same symbol or by two of them. -/
theorem Linked.nodup_declarations (linked : s.Linked t) :
    (s.symbols.symbols.toList.flatMap fun data => data.declarations.toList).Nodup := by
  have got (k : Nat) (low : k < s.symbols.symbols.toList.length) :
      s.symbols.get? k = some s.symbols.symbols.toList[k] := by
    rw [Array.getElem_toList]
    exact Array.getElem?_eq_getElem low
  refine List.nodup_flatMap.2 ⟨fun data listed => ?_, List.pairwise_iff_getElem.2 ?_⟩
  · obtain ⟨k, low, rfl⟩ := List.mem_iff_getElem.1 listed
    exact (linked.describes k _ (got k low)).once
  · intro a b lowA lowB less c first second
    obtain ⟨i, rfl, -, -, known⟩ :=
      (linked.describes a _ (got a lowA)).identifiers c (Array.mem_toList_iff.1 first)
    obtain ⟨j, same, -, -, known'⟩ :=
      (linked.describes b _ (got b lowB)).identifiers (some i) (Array.mem_toList_iff.1 second)
    obtain rfl := Option.some.inj same
    exact absurd (Option.some.inj (known.symm.trans known')) (Nat.ne_of_lt less)

end Scopes

/-- The symbols, tables and declarations of every text fit together, also where the text has syntax
problems: symbols and the names in tables correspond to each other one by one, the identifiers that
declare a symbol are just those that know it, and its forms are all those of its declarations. No node
is declared twice, and each identifier is declared by one node alone, in one form. -/
theorem parseFile_scopes_linked (fileName source : String) :
    (let file := parseFile fileName source
    file.scopes.Linked file.tree ∧
      (file.scopes.symbols.symbols.toList.flatMap fun data => data.declarations.toList).Nodup ∧
      ∀ i d d' form form', file.tree.DeclaredBy d i form → file.tree.DeclaredBy d' i form' →
        d = d' ∧ form = form') := by
  intro file
  obtain ⟨sound, root, n, isRoot, hn, kind, top⟩ := parseFile_sound fileName source
  have linked : file.scopes.Linked file.tree := by
    rw [ParsedFile.scopes, isRoot]
    apply Scopes.ofTree_linked sound hn kind
    rw [Tree.parent, Tree.node?_some, hn]
    exact top
  exact ⟨linked, linked.nodup_declarations, fun _ _ _ _ _ declares => declares.unique sound⟩

example : ((parseFile "merged.ts" "var a; function a() \x7b\x7d").scopes.symbols.symbols.toList.map
    fun data => (data.name, data.forms, data.declarations.size)) =
      [("a", DeclarationForm.hoistedVariable.bit ||| DeclarationForm.function.bit, 2)] := by
  decide +kernel

end PathGuard
