import ReactiveForm.Proofs.Definition.Parts
import ReactiveForm.Rules

/-!
# Whose rules are kept

The rules of a form are read from the definitions in their order, a template before the instances
of its repeat, and the first definition with a reference decides. What a later one with the same
reference declares is not even read.
-/

set_option autoImplicit false

namespace ReactiveForm

namespace Definition

/-- The parts of a definition that may have outputs. -/
def binders (d : Definition) : List Definition := d.parts.filter (·.type ≠ .range)

/-- The first part with a reference that may have outputs. -/
def first? (d : Definition) (reference : String) : Option Definition :=
  d.binders.find? (·.reference = reference)

/-- The expressions that the definition declares, as texts. -/
def texts (e : Definition) : List String :=
  e.bind.expressions.map (·.2) ++
    match e.itemset with
    | none => []
    | some s => [s.nodeset, s.value, s.label]

/-- All expressions that the definition declares can be read. -/
def Readable (e : Definition) : Prop := ∀ text ∈ e.texts, ∃ expr, Expr.read text = .ok expr

/-- The outputs that the definition declares. -/
def kinds (e : Definition) : List OutputKind :=
  e.bind.expressions.map (fun p => .bind p.1) ++ (e.itemset.map fun _ => OutputKind.itemset).toList

end Definition

namespace Rules

/-- The rules hold the expressions that the definition declares, and no other ones. -/
structure Spells (rules : Rules) (e : Definition) : Prop where
  expressions : List.Forall₂ (fun read declared => read.1 = declared.1 ∧
    Expr.read declared.2 = .ok read.2) rules.expressions e.bind.expressions
  itemset : Option.Rel (fun read declared => Expr.read declared.nodeset = .ok read.nodeset ∧
    Expr.read declared.value = .ok read.value ∧ Expr.read declared.label = .ok read.label)
    rules.itemset e.itemset

theorem Spells.kinds_eq {rules : Rules} {e : Definition} (h : rules.Spells e) :
    rules.kinds = e.kinds := by
  obtain ⟨expressions, itemset⟩ := rules
  obtain ⟨hexpressions, hitemset⟩ := h
  unfold kinds Definition.kinds
  dsimp only at hexpressions hitemset ⊢
  congr 1
  · generalize e.bind.expressions = declared at hexpressions
    induction hexpressions with
    | nil => rfl
    | cons hread _ ih => rw [List.map_cons, List.map_cons, ih, hread.1]
  · generalize e.itemset = declared at hitemset
    cases hitemset <;> rfl

theorem readPart_eq_ok {reference part text : String} {e : Expr} :
    readPart reference part text = .ok e ↔ Expr.read text = .ok e := by
  unfold readPart
  cases Expr.read text <;> simp

theorem readBinds_spells {reference : String} {binds : List (BindKind × String)}
    {expressions : List (BindKind × Expr)} (h : readBinds reference binds = .ok expressions) :
    List.Forall₂ (fun read declared => read.1 = declared.1 ∧ Expr.read declared.2 = .ok read.2)
      expressions binds := by
  induction binds generalizing expressions with
  | nil =>
    obtain rfl := Except.ok.inj h
    exact .nil
  | cons bind binds ih =>
    obtain ⟨e, he, h⟩ := ok_of_bind h
    obtain ⟨es, hes, h⟩ := ok_of_bind h
    obtain rfl := Except.ok.inj h
    exact .cons ⟨rfl, readPart_eq_ok.mp he⟩ (ih hes)

theorem readItemset_spells {reference : String} {s : Itemset} {rule : ItemRule}
    (h : readItemset reference s = .ok rule) : Expr.read s.nodeset = .ok rule.nodeset ∧
      Expr.read s.value = .ok rule.value ∧ Expr.read s.label = .ok rule.label := by
  obtain ⟨nodeset, hnodeset, h⟩ := ok_of_bind h
  obtain ⟨value, hvalue, h⟩ := ok_of_bind h
  obtain ⟨label, hlabel, h⟩ := ok_of_bind h
  obtain rfl := Except.ok.inj h
  exact ⟨readPart_eq_ok.mp hnodeset, readPart_eq_ok.mp hvalue, readPart_eq_ok.mp hlabel⟩

theorem spells_ofHeader {e : Definition} {rules : Rules}
    (h : ofHeader e.header e.itemset = .ok rules) : rules.Spells e := by
  obtain ⟨expressions, hexpressions, h⟩ := ok_of_bind h
  have hspelled := readBinds_spells hexpressions
  cases hitemset : e.itemset with
  | none =>
    rw [hitemset] at h
    obtain rfl := Except.ok.inj h
    exact ⟨hspelled, hitemset ▸ .none⟩
  | some s =>
    rw [hitemset] at h
    obtain ⟨rule, hrule, h⟩ := ok_of_bind h
    obtain rfl := Except.ok.inj h
    exact ⟨hspelled, hitemset ▸ .some (readItemset_spells hrule)⟩

theorem Spells.readable {rules : Rules} {e : Definition} (h : rules.Spells e) : e.Readable := by
  obtain ⟨expressions, itemset⟩ := rules
  obtain ⟨hexpressions, hitemset⟩ := h
  intro text htext
  rcases List.mem_append.mp htext with htext | htext
  · obtain ⟨⟨kind, text⟩, hmem, rfl⟩ := List.mem_map.mp htext
    clear hitemset
    dsimp only at hexpressions
    generalize e.bind.expressions = declared at hexpressions hmem
    induction hexpressions with
    | nil => exact nomatch hmem
    | cons hread _ ih =>
      rcases List.mem_cons.mp hmem with rfl | hmem
      · exact ⟨_, hread.2⟩
      · exact ih hmem
  · dsimp only at hitemset
    generalize e.itemset = declared at hitemset htext
    cases hitemset with
    | none => exact nomatch htext
    | some hread =>
      obtain ⟨hnodeset, hvalue, hlabel⟩ := hread
      simp only [List.mem_cons, List.not_mem_nil, or_false] at htext
      rcases htext with rfl | rfl | rfl
      · exact ⟨_, hnodeset⟩
      · exact ⟨_, hvalue⟩
      · exact ⟨_, hlabel⟩

theorem lookup_expressions (b : Bind) (kind : BindKind) :
    b.expressions.lookup kind = b.expression kind := by
  have hlookup (kinds : List BindKind) :
      (kinds.filterMap fun kind => (b.expression kind).map fun e => (kind, e)).lookup kind
        = if kind ∈ kinds then b.expression kind else none := by
    induction kinds with
    | nil => rfl
    | cons other kinds ih =>
      rw [List.filterMap_cons]
      by_cases heq : kind = other
      · subst heq
        rw [if_pos List.mem_cons_self]
        cases hkind : b.expression kind with
        | none =>
          rw [hkind] at ih
          exact ih.trans (ite_self none)
        | some e => exact List.lookup_cons_self
      · have hmem : kind ∈ other :: kinds ↔ kind ∈ kinds := by simp [heq]
        have hbeq : (kind == other) = false := by simpa using heq
        rw [if_congr hmem rfl rfl, ← ih]
        cases b.expression other with
        | none => rfl
        | some e =>
          rw [Option.map_some, List.lookup_cons, hbeq]
  exact (hlookup BindKind.all).trans (if_pos (by cases kind <;> decide))

/-- Where the definition declares an expression, the rules hold it. -/
theorem Spells.lookup {rules : Rules} {e : Definition} (h : rules.Spells e) {kind : BindKind}
    {text : String} (htext : e.bind.expression kind = some text) :
    ∃ expr, rules.expressions.lookup kind = some expr ∧ Expr.read text = .ok expr := by
  rw [← lookup_expressions] at htext
  have hexpressions := h.expressions
  generalize rules.expressions = read at hexpressions
  generalize e.bind.expressions = declared at hexpressions htext
  induction hexpressions with
  | nil => exact nomatch htext
  | @cons read declared _ _ hread _ ih =>
    obtain ⟨kind', expr⟩ := read
    obtain ⟨_, text'⟩ := declared
    obtain ⟨rfl, hexpr⟩ := hread
    rw [List.lookup_cons] at htext ⊢
    cases hkind : kind == kind' with
    | true =>
      rw [hkind] at htext
      obtain rfl := Option.some.inj htext
      exact ⟨expr, rfl, hexpr⟩
    | false =>
      rw [hkind] at htext
      exact ih htext

theorem ok_bind {ε α β : Type} (a : α) (f : α → Except ε β) : (.ok a >>= f) = f a := rfl

theorem exists_readBinds (reference : String) {binds : List (BindKind × String)}
    (h : ∀ bind ∈ binds, ∃ e, Expr.read bind.2 = .ok e) :
    ∃ expressions, readBinds reference binds = .ok expressions := by
  induction binds with
  | nil => exact ⟨[], rfl⟩
  | cons bind binds ih =>
    obtain ⟨kind, text⟩ := bind
    obtain ⟨⟨e, he⟩, hrest⟩ := List.forall_mem_cons.mp h
    obtain ⟨es, hes⟩ := ih hrest
    have hpart : readPart reference kind.name text = .ok e := readPart_eq_ok.mpr he
    refine ⟨(kind, e) :: es, ?_⟩
    rw [readBinds, hpart, ok_bind, hes, ok_bind]
    rfl

theorem exists_readItemset (reference : String) {s : Itemset}
    (h : ∀ text ∈ [s.nodeset, s.value, s.label], ∃ e, Expr.read text = .ok e) :
    ∃ rule, readItemset reference s = .ok rule := by
  obtain ⟨nodeset, hnodeset⟩ := h s.nodeset (by simp)
  obtain ⟨value, hvalue⟩ := h s.value (by simp)
  obtain ⟨label, hlabel⟩ := h s.label (by simp)
  refine ⟨⟨nodeset, value, label⟩, ?_⟩
  unfold readItemset
  rw [readPart_eq_ok.mpr hnodeset, readPart_eq_ok.mpr hvalue, readPart_eq_ok.mpr hlabel]
  rfl

theorem exists_ofHeader {e : Definition} (h : e.Readable) :
    ∃ rules, ofHeader e.header e.itemset = .ok rules := by
  have hbinds : ∀ bind ∈ e.bind.expressions, ∃ expression, Expr.read bind.2 = .ok expression :=
    fun bind hbind => h bind.2 (List.mem_append_left _ (List.mem_map_of_mem hbind))
  obtain ⟨expressions, hexpressions⟩ := exists_readBinds e.header.reference hbinds
  unfold ofHeader
  rw [show e.header.bind.expressions = e.bind.expressions from rfl, hexpressions]
  cases hitemset : e.itemset with
  | none => exact ⟨_, rfl⟩
  | some s =>
    obtain ⟨rule, hrule⟩ := exists_readItemset e.header.reference (s := s) fun text htext =>
      h text (List.mem_append_right _ (by rwa [hitemset]))
    refine ⟨{ expressions, itemset := some rule }, ?_⟩
    rw [ok_bind]
    simp only [hrule, ok_bind]
    rfl

end Rules

namespace RuleBook

variable {book book' : RuleBook} {e : Definition} {es : List Definition} {reference : String}

/-! ## One definition after the other -/

/-- Reads the rules of definitions, one after the other. -/
def enterAll (book : RuleBook) (es : List Definition) : Except RuleError RuleBook :=
  es.foldlM (fun book e => book.enter e.header e.itemset) book

theorem enterAll_cons (book : RuleBook) (e : Definition) (es : List Definition) :
    book.enterAll (e :: es) = book.enter e.header e.itemset >>= fun book => book.enterAll es :=
  List.foldlM_cons

theorem enterAll_append (book : RuleBook) (xs ys : List Definition) :
    book.enterAll (xs ++ ys) = book.enterAll xs >>= fun book => book.enterAll ys :=
  List.foldlM_append

theorem enterAll_singleton (book : RuleBook) (e : Definition) :
    book.enterAll [e] = book.enter e.header e.itemset := by
  rw [enterAll_cons]
  exact bind_pure _

theorem enterAll_binders {cs : List Definition} (hrange : e.type ≠ .range)
    (hparts : e.parts = e :: Definition.partsAmong cs)
    (hall : ∀ book : RuleBook, book.extendAll cs
      = book.enterAll ((Definition.partsAmong cs).filter (·.type ≠ .range))) :
    (do extendAll (← book.enter e.header e.itemset) cs) = book.enterAll e.binders := by
  have hbinders : e.binders = e :: (Definition.partsAmong cs).filter (·.type ≠ .range) := by
    rw [Definition.binders, hparts, List.filter_cons_of_pos (by simpa using hrange)]
  rw [hbinders, enterAll_cons]
  congr 1
  funext book
  exact hall book

mutual

/-- Reading a definition means to read those of its parts that may have outputs. -/
theorem extend_eq (book : RuleBook) : (d : Definition) → book.extend d = book.enterAll d.binders
  | .root h cs =>
    enterAll_binders (e := .root h cs) nofun rfl fun book => extendAll_eq book cs
  | .group h cs =>
    enterAll_binders (e := .group h cs) nofun rfl fun book => extendAll_eq book cs
  | .inst h cs =>
    enterAll_binders (e := .inst h cs) nofun rfl fun book => extendAll_eq book cs
  | .value h default => (book.enterAll_singleton (.value h default)).symm
  | .select h mode default items itemset =>
    (book.enterAll_singleton (.select h mode default items itemset)).symm
  | .range h template instances => by
    have hbinders : (Definition.range h template instances).binders
        = template.binders ++ (Definition.partsAmong instances).filter (·.type ≠ .range) := by
      simp [Definition.binders, Definition.parts, Definition.type]
    rw [hbinders, enterAll_append, ← extend_eq book template, extend]
    congr 1
    funext book
    exact extendAll_eq book instances

theorem extendAll_eq (book : RuleBook) : (ds : List Definition) →
    book.extendAll ds = book.enterAll ((Definition.partsAmong ds).filter (·.type ≠ .range))
  | [] => rfl
  | d :: ds => by
    have hbinders : d.parts.filter (·.type ≠ .range) = d.binders := rfl
    rw [Definition.partsAmong, List.filter_append, enterAll_append, hbinders, ← extend_eq book d,
      extendAll]
    congr 1
    funext book
    exact extendAll_eq book ds

end

theorem enter_cases (book : RuleBook) (e : Definition) :
    (∃ rules, Table.get? book e.reference = some rules ∧ book.enter e.header e.itemset = .ok book) ∨
    Table.get? book e.reference = none ∧
      ((¬ e.Readable ∧ ∃ error, book.enter e.header e.itemset = .error error) ∨
        ∃ rules, rules.Spells e ∧
          book.enter e.header e.itemset = .ok (Table.set book e.reference rules)) := by
  have henter : book.enter e.header e.itemset
      = if (Table.get? book e.reference).isSome then .ok book
        else (Rules.ofHeader e.header e.itemset).map fun rules => book.set e.reference rules := rfl
  rw [henter]
  cases hget : Table.get? book e.reference with
  | some rules => exact .inl ⟨rules, rfl, rfl⟩
  | none =>
    refine .inr ⟨rfl, ?_⟩
    cases hrules : Rules.ofHeader e.header e.itemset with
    | error error =>
      refine .inl ⟨fun hreadable => ?_, error, rfl⟩
      obtain ⟨rules, hok⟩ := Rules.exists_ofHeader hreadable
      exact nomatch hrules.symm.trans hok
    | ok rules => exact .inr ⟨rules, Rules.spells_ofHeader hrules, rfl⟩

theorem find?_reference_cons (e : Definition) (es : List Definition) (reference : String) :
    (e :: es).find? (·.reference = reference)
      = if e.reference = reference then some e else es.find? (·.reference = reference) := by
  by_cases h : e.reference = reference <;> simp [h]

/-- The second book has the rules of the first one, and for other references those of the first
definition with the reference. -/
structure Entered (book : RuleBook) (es : List Definition) (book' : RuleBook) : Prop where
  kept : ∀ reference rules, Table.get? book reference = some rules →
    Table.get? book' reference = some rules
  first : ∀ reference e, es.find? (·.reference = reference) = some e →
    Table.get? book reference = none → ∃ rules, Table.get? book' reference = some rules ∧
      rules.Spells e
  other : ∀ reference, es.find? (·.reference = reference) = none →
    Table.get? book reference = none → Table.get? book' reference = none

theorem Entered.cons_of_some {rules : Rules} (h : book.Entered es book')
    (hget : Table.get? book e.reference = some rules) : book.Entered (e :: es) book' := by
  obtain ⟨hkept, hfirst, hother⟩ := h
  have hne {reference : String} (hnone : Table.get? book reference = none) :
      e.reference ≠ reference := by
    rintro rfl
    cases hget.symm.trans hnone
  refine ⟨hkept, fun reference d hfind hnone => ?_, fun reference hfind hnone => ?_⟩
  · rw [find?_reference_cons, if_neg (hne hnone)] at hfind
    exact hfirst reference d hfind hnone
  · rw [find?_reference_cons, if_neg (hne hnone)] at hfind
    exact hother reference hfind hnone

theorem Entered.cons_of_none {rules : Rules} (h : Entered (Table.set book e.reference rules) es book')
    (hget : Table.get? book e.reference = none) (hspells : rules.Spells e) :
    book.Entered (e :: es) book' := by
  obtain ⟨hkept, hfirst, hother⟩ := h
  have hset (reference : String) : Table.get? (Table.set book e.reference rules) reference
      = if e.reference = reference then some rules else Table.get? book reference :=
    Table.get?_set _ _ _ _
  refine ⟨fun reference kept hsome => ?_, fun reference d hfind hnone => ?_,
    fun reference hfind hnone => ?_⟩
  · refine hkept reference kept ?_
    rw [hset, if_neg, hsome]
    rintro rfl
    cases hget.symm.trans hsome
  · rw [find?_reference_cons] at hfind
    split at hfind
    next hsame =>
      obtain rfl := Option.some.inj hfind
      exact ⟨rules, hkept reference rules (by rw [hset, if_pos hsame]), hspells⟩
    next hne => exact hfirst reference d hfind (by rw [hset, if_neg hne, hnone])
  · rw [find?_reference_cons] at hfind
    split at hfind
    next => cases hfind
    next hne => exact hother reference hfind (by rw [hset, if_neg hne, hnone])

theorem entered_of_enterAll (h : book.enterAll es = .ok book') : book.Entered es book' := by
  induction es generalizing book with
  | nil =>
    obtain rfl := Except.ok.inj h
    exact ⟨fun _ _ h => h, nofun, fun _ _ h => h⟩
  | cons e es ih =>
    rw [enterAll_cons] at h
    obtain ⟨next, hnext, h⟩ := ok_of_bind h
    rcases book.enter_cases e with ⟨rules, hget, heq⟩ | ⟨hget, ⟨_, error, heq⟩ | ⟨rules, hspells, heq⟩⟩
    · obtain rfl := Except.ok.inj (heq.symm.trans hnext)
      exact (ih h).cons_of_some hget
    · cases heq.symm.trans hnext
    · obtain rfl := Except.ok.inj (heq.symm.trans hnext)
      exact (ih h).cons_of_none hget hspells

/-- Reading fails where a definition that is the first with its reference cannot be read. -/
theorem enterAll_fails_iff : (∃ error, book.enterAll es = .error error) ↔
    ∃ e, es.find? (·.reference = e.reference) = some e ∧ Table.get? book e.reference = none ∧
      ¬ e.Readable := by
  induction es generalizing book with
  | nil =>
    constructor
    · rintro ⟨_, herror⟩
      cases herror
    · rintro ⟨_, hfind, _⟩
      cases hfind
  | cons e es ih =>
    rw [enterAll_cons]
    simp only [find?_reference_cons]
    rcases book.enter_cases e with ⟨rules, hget, heq⟩ | ⟨hget, ⟨hunread, error, heq⟩ |
      ⟨rules, hspells, heq⟩⟩
    · -- another definition has had the reference before
      rw [heq]
      refine ih.trans (exists_congr fun d => ?_)
      by_cases hsame : e.reference = d.reference
      · rw [hsame] at hget
        simp [hget]
      · rw [if_neg hsame]
    · rw [heq]
      exact ⟨fun _ => ⟨e, if_pos rfl, hget, hunread⟩, fun _ => ⟨error, rfl⟩⟩
    · -- from here on the reference is taken, and what took it can be read
      rw [heq]
      refine ih.trans (exists_congr fun d => ?_)
      rw [Table.get?_set]
      by_cases hsame : e.reference = d.reference
      · rw [if_pos hsame, if_pos hsame, Option.some.injEq]
        constructor
        · rintro ⟨_, hsome, _⟩
          cases hsome
        · rintro ⟨rfl, _, hunread⟩
          exact absurd hspells.readable hunread
      · rw [if_neg hsame, if_neg hsame]

theorem entered_of_ofDefinition {d : Definition} (h : ofDefinition d = .ok book) :
    Entered [] d.binders book := by
  unfold ofDefinition at h
  rw [extend_eq] at h
  exact entered_of_enterAll h

theorem exists_of_ofDefinition {d : Definition} (h : ofDefinition d = .ok book) {rules : Rules}
    (hrules : Table.get? book reference = some rules) :
    ∃ e ∈ d.binders, e.reference = reference ∧ rules.Spells e := by
  obtain ⟨_, hfirst, hother⟩ := entered_of_ofDefinition h
  cases hfind : d.first? reference with
  | none => exact nomatch (hother reference hfind rfl).symm.trans hrules
  | some e =>
    obtain ⟨rules', hrules', hspells⟩ := hfirst reference e hfind rfl
    obtain rfl := Option.some.inj (hrules.symm.trans hrules')
    exact ⟨e, List.mem_of_find?_eq_some hfind, by simpa using List.find?_some hfind, hspells⟩

/-- The rules of a form cannot be read if and only if some definition that is the first with its
reference cannot be read. -/
theorem ofDefinition_fails_iff {d : Definition} : (∃ error, ofDefinition d = .error error) ↔
    ∃ e, d.first? e.reference = some e ∧ ¬ e.Readable := by
  unfold ofDefinition
  rw [extend_eq, enterAll_fails_iff]
  refine exists_congr fun e => ?_
  have hnone : Table.get? ([] : RuleBook) e.reference = none := rfl
  simp [Definition.first?, hnone]

end RuleBook

end ReactiveForm
