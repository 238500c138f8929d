import ReactiveForm.Outcome
import ReactiveForm.Proofs.Eval.Tracking
import ReactiveForm.Proofs.Schedule.Settled

/-!
# What outcomes depend on

The outcome of an output depends on the frame of the tree and on the contents of the leaves that it
reports as read: its expressions do, one by one, and the place of its node belongs to the frame.
-/

set_option autoImplicit false

namespace ReactiveForm

theorem Tree.SameFrame.place_eq {t t' : Tree} (h : t.SameFrame t') (id : NodeId) :
    t'.place id = t.place id := by
  have hbelow (above : List NodeId) (id : NodeId) :
      t'.placeBelow id above = t.placeBelow id above := by
    induction above generalizing id with
    | nil => rfl
    | cons p ps ih => simp only [placeBelow, placeIn, h.isRange_eq, h.children_eq, ih]
  rw [place, place, h.ancestors_eq, hbelow]

/-- All expressions among the rules can be traced. -/
def Rules.Traceable (rules : Rules) : Prop :=
  (∀ entry ∈ rules.expressions, entry.2.Traceable) ∧
    ∀ items ∈ rules.itemset, items.nodeset.Traceable ∧ items.value.Traceable ∧
      items.label.Traceable

def RuleBook.Traceable (book : RuleBook) : Prop :=
  ∀ reference rules, Table.get? book reference = some rules → rules.Traceable

theorem mem_of_lookup {κ ν : Type} [BEq κ] [LawfulBEq κ] {entries : List (κ × ν)} {k : κ} {v : ν}
    (h : entries.lookup k = some v) : (k, v) ∈ entries := by
  obtain ⟨before, behind, rfl, _⟩ := List.lookup_eq_some_iff.mp h
  simp

namespace Logic

open Reading

variable {l : Logic} {t t' : Tree}

section

variable (hlibrary : l.library = .builtins) (hw : t.WellFormed) (h : t.SameFrame t')

include hlibrary hw h

theorem value_echoes {e : Expr} (he : e.Traceable) {x : ViewNode} (hx : t.Shows x)
    (place : Nat × Nat) {H : Prop} :
    Echoes (t.AgreeBelow t') H (l.value t e x place) (l.value t' e x place)
      (Value.Covered t t') := by
  have hpaired : (l.environment t x place).Paired t t' (l.environment t' x place) :=
    { document := rfl, document' := rfl, library := hlibrary, library' := hlibrary, current := rfl
      position := rfl, size := rfl, bindings := rfl, shows_current := hx }
  exact (Environment.follows hw h hpaired e he _).given fun _ => hx

theorem itemsAt_echoes {rule : ItemRule} (hvalue : rule.value.Traceable)
    (hlabel : rule.label.Traceable) (size position : Nat) {xs : List ViewNode}
    (hxs : ∀ x ∈ xs, t.Shows x) {H : Prop} :
    Echoes (t.AgreeBelow t') H (l.itemsAt t rule size position xs)
      (l.itemsAt t' rule size position xs) fun _ => True := by
  induction xs generalizing position H with
  | nil => exact .pure fun _ => ⟨rfl, trivial⟩
  | cons x xs ih =>
    have hx := hxs x List.mem_cons_self
    have hrest := fun y hy => hxs y (List.mem_cons_of_mem x hy)
    simp only [itemsAt]
    refine (value_echoes hlibrary hw h hvalue hx _).bind fun v => ?_
    refine (value_echoes hlibrary hw h hlabel hx _).bind fun w => ?_
    refine (ih _ hrest).bind fun items => .pure ?_
    rintro ⟨⟨⟨_, hv⟩, hw⟩, _⟩
    exact ⟨by rw [Value.toText_eq h hv, Value.toText_eq h hw], trivial⟩

end

theorem shows_of_run (hlibrary : l.library = .builtins) (hw : t.WellFormed) {e : Expr}
    (he : e.Traceable) {x : ViewNode} (hx : t.Shows x) (place : Nat × Nat) (r : Reads ViewNode)
    {v : Value ViewNode} {s : Log ViewNode} (hrun : (l.value t e x place).run (some r) = (.ok v, s))
    {xs : List ViewNode} (hxs : v.toNodes = .ok xs) : ∀ y ∈ xs, t.Shows y := by
  have hself := value_echoes hlibrary hw (.refl t) he hx place (H := True)
  obtain ⟨out, r', hrun', _, hcovered⟩ := hself r
  obtain rfl : out = .ok v := congrArg Prod.fst (hrun'.symm.trans hrun)
  obtain ⟨_, hv⟩ := hcovered trivial fun _ _ _ _ _ => rfl
  exact fun y hy => (Builtin.toNodes_covered (hv v rfl) hxs y hy).1

theorem items_echoes (hlibrary : l.library = .builtins) (hw : t.WellFormed) (h : t.SameFrame t')
    {rule : ItemRule} (hnodeset : rule.nodeset.Traceable) (hvalue : rule.value.Traceable)
    (hlabel : rule.label.Traceable) {id : NodeId} (hid : t.Shows (.element id))
    (place : Nat × Nat) {H : Prop} :
    Echoes (t.AgreeBelow t') H (l.items t rule id place) (l.items t' rule id place)
      fun _ => True := by
  unfold items
  refine (value_echoes hlibrary hw h hnodeset hid place).bind_of
    (R := fun v => ∀ xs, v.toNodes = .ok xs → ∀ x ∈ xs, t.Shows x) ?_ ?_
  · intro r v s hrun xs hxs
    exact shows_of_run hlibrary hw hnodeset hid place r hrun hxs
  intro v hshows
  cases hnodes : v.toNodes with
  | error e => exact .fail e
  | ok xs =>
    refine (itemsAt_echoes hlibrary hw h hvalue hlabel xs.length 1 (hshows xs hnodes)).bind fun _ => ?_
    exact .pure fun _ => ⟨rfl, trivial⟩

theorem result_echoes (hlibrary : l.library = .builtins) (hw : t.WellFormed) (h : t.SameFrame t')
    {rules : Rules} (hrules : rules.Traceable) {o : Output} (ho : t.Shows (.element o.node))
    (place : Nat × Nat) {H : Prop} :
    Echoes (t.AgreeBelow t') H (l.result t rules o place) (l.result t' rules o place)
      fun _ => True := by
  obtain ⟨node, kind⟩ := o
  cases kind with
  | itemset =>
    simp only [result]
    cases hitems : rules.itemset with
    | none => exact .fail _
    | some rule =>
      obtain ⟨hnodeset, hvalue, hlabel⟩ := hrules.2 rule hitems
      refine (items_echoes hlibrary hw h hnodeset hvalue hlabel ho place).bind fun _ => ?_
      exact .pure fun _ => ⟨rfl, trivial⟩
  | bind kind =>
    simp only [result]
    cases hlookup : rules.expressions.lookup kind with
    | none => exact .fail _
    | some e =>
      have he : e.Traceable := hrules.1 (kind, e) (mem_of_lookup hlookup)
      refine (value_echoes hlibrary hw h he ho place).bind fun v => ?_
      cases kind with
      | calculate => exact .pure fun hv => ⟨by rw [Value.toText_eq h hv.2], trivial⟩
      | relevant | readonly | required | constraint => exact .pure fun _ => ⟨rfl, trivial⟩

/-- Outcomes under rules that can be traced depend on what they report as read only. -/
theorem traces (hlibrary : l.library = .builtins) (htraceable : l.rules.Traceable)
    (hw : t.WellFormed) : t.Traces l.outcome := by
  intro t₁ t₂ o hbase h hagree
  have hw₁ := hbase.wellFormed hw
  unfold outcome
  rw [RuleBook.rulesAt_eq h, h.place_eq]
  cases hrules : l.rules.rulesAt t₁ o.node with
  | none => rfl
  | some rules =>
    obtain ⟨n, hn, hrange, hget⟩ := RuleBook.exists_definition_of_rulesAt hrules
    have hshows : t₁.Shows (.element o.node) :=
      ⟨Tree.contains_iff.mpr ⟨n, hn⟩, by simpa [Tree.isRange, hn, Node.isRange] using hrange⟩
    have hechoes := result_echoes hlibrary hw₁ h (htraceable _ _ hget) hshows
      ((t₁.place o.node).getD (1, 1)) (H := True)
    obtain ⟨out, r, hrun, _, hsame⟩ := hechoes .empty
    have hreads : ∀ x ∈ r.nodes, t₁.AgreeBelow t₂ x := by
      intro x hx
      refine hagree (t₁.target x) ?_
      simp only [outcome, hrules, hrun, Option.getD_some]
      exact List.mem_eraseDups.mpr (List.mem_map_of_mem hx)
    obtain ⟨hrun', _⟩ := hsame trivial hreads
    have htarget : t₂.target = t₁.target := funext h.target_eq
    simp only [hrun, hrun', Option.getD_some, htarget]

end Logic

/-! ## Values of outputs -/

/-- The value is of the sort that outputs of the kind come to. -/
def OutputValue.Fits : OutputValue → OutputKind → Prop
  | .flag _, .bind kind => kind ≠ .calculate
  | .text _, .bind kind => kind = .calculate
  | .items _, .itemset => True
  | _, _ => False

/-- What an output comes to is of the sort of its kind. -/
theorem Logic.fits_of_result {l : Logic} {t : Tree} {o : Output} {v : OutputValue}
    (h : (l.outcome t o).result = .ok v) : v.Fits o.kind := by
  obtain ⟨id, kind⟩ := o
  unfold outcome at h
  cases hrules : l.rules.rulesAt t id with
  | none =>
    simp only [hrules] at h
    exact nomatch h
  | some rules =>
    simp only [hrules, result] at h
    cases kind with
    | itemset =>
      cases hitemset : rules.itemset with
      | none =>
        simp only [hitemset] at h
        exact nomatch h
      | some rule =>
        simp only [hitemset] at h
        obtain ⟨list, _, h⟩ := Reading.ok_of_run_bind h
        obtain rfl := Except.ok.inj h
        trivial
    | bind kind =>
      cases hlookup : rules.expressions.lookup kind with
      | none =>
        simp only [hlookup] at h
        exact nomatch h
      | some e =>
        simp only [hlookup] at h
        obtain ⟨value, _, h⟩ := Reading.ok_of_run_bind h
        cases kind with
        | calculate =>
          obtain rfl := Except.ok.inj h
          exact rfl
        | relevant | readonly | required | constraint =>
          obtain rfl := Except.ok.inj h
          exact nofun

/-! ## Plain expressions -/

/-- Whether the step has no predicates and looks for no texts. -/
def Step.isPlain (s : Step Expr) : Bool := s.predicates.isEmpty && !s.findsText

/-- Whether the expression is a literal, or a path of plain steps from the root or from the node in
view. -/
def Expr.isPlain : Expr → Bool
  | .text _ => true
  | .number _ => true
  | .path .root steps => steps.all (·.isPlain)
  | .path .context steps => steps.all (·.isPlain)
  | _ => false

/-- No items are computed, and all expressions are plain. -/
def RuleBook.Plain (book : RuleBook) : Prop :=
  ∀ reference rules, Table.get? book reference = some rules →
    rules.itemset.isNone ∧ rules.expressions.all (·.2.isPlain)

theorem Step.isPlain_iff {s : Step Expr} :
    s.isPlain ↔ s.predicates = [] ∧ s.findsText = false := by
  simp [isPlain]

theorem guardedSteps_of_plain {steps : List (Step Expr)} (h : steps.all (·.isPlain)) :
    Expr.TraceableSteps steps ∧ GuardedSteps steps := by
  induction steps with
  | nil => exact ⟨trivial, trivial⟩
  | cons s steps ih =>
    obtain ⟨hs, hsteps⟩ := List.forall_mem_cons.mp (List.all_eq_true.mp h)
    obtain ⟨htraceable, hguarded⟩ := ih (List.all_eq_true.mpr hsteps)
    obtain ⟨hpredicates, hfinds⟩ := Step.isPlain_iff.mp hs
    obtain ⟨axis, test, predicates⟩ := s
    obtain rfl : predicates = [] := hpredicates
    refine ⟨⟨trivial, htraceable⟩, ?_, hguarded⟩
    intro hfound
    exact nomatch hfound.symm.trans hfinds

theorem Expr.traceable_of_isPlain {e : Expr} (h : e.isPlain) : e.Traceable := by
  cases e with
  | text | number => trivial
  | path start steps =>
    cases start with
    | root => exact ⟨trivial, guardedSteps_of_plain h⟩
    | context => exact ⟨trivial, guardedSteps_of_plain h⟩
    | nodes => exact nomatch h
  | «variable» | call | binary | negate | union | filter => exact nomatch h

theorem RuleBook.Plain.traceable {book : RuleBook} (h : book.Plain) : book.Traceable := by
  intro reference rules hrules
  obtain ⟨hitemset, hplain⟩ := h reference rules hrules
  refine ⟨fun entry hentry => ?_, fun items hitems => ?_⟩
  · exact Expr.traceable_of_isPlain (List.all_eq_true.mp hplain entry hentry)
  · rw [Option.mem_def] at hitems
    simp [hitems] at hitemset

namespace Environment

variable {t t' : Tree} {env env' : Environment ViewNode} (h : t.SameFrame t')
  (hp : env.Paired t t' env')

include h hp

theorem evalStep_eq_of_plain {s : Step Expr} (hs : s.isPlain) (isLast : Bool) :
    env'.evalStep s isLast = env.evalStep s isLast := by
  obtain ⟨hpredicates, hplain⟩ := Step.isPlain_iff.mp hs
  obtain ⟨axis, test, predicates⟩ := s
  obtain rfl : predicates = [] := hpredicates
  funext x
  have hfound := found_eq h hp hplain x
  cases isLast with
  | false => simp only [evalStep, candidates_inner, hfound, evalPredicates]
  | true => simp only [evalStep, candidates_last hplain, hfound, evalPredicates]

theorem evalSteps_eq_of_plain {steps : List (Step Expr)}
    (hsteps : steps.all (·.isPlain)) (xs : List ViewNode) :
    env'.evalSteps steps xs = env.evalSteps steps xs := by
  induction steps generalizing xs with
  | nil => rw [evalSteps, evalSteps]
  | cons s steps ih =>
    obtain ⟨hs, hrest⟩ := List.forall_mem_cons.mp (List.all_eq_true.mp hsteps)
    rw [evalSteps, evalSteps, evalStep_eq_of_plain h hp hs]
    congr 1
    funext found
    rw [nodeSet_env_eq h hp, ih (List.all_eq_true.mpr hrest)]

/-- A plain expression finds and reads the same nodes whatever the leaves hold. -/
theorem eval_eq_of_plain {e : Expr} (he : e.isPlain) (focus : Focus ViewNode) :
    env'.eval e focus = env.eval e focus := by
  cases e with
  | text | number => rw [eval, eval]
  | path start steps =>
    have hroot : env'.document.root focus.node = env.document.root focus.node := by
      rw [hp.document, hp.document']
      rfl
    cases start with
    | root =>
      simp only [eval, evalStart, hroot, evalSteps_eq_of_plain h hp he]
    | context =>
      simp only [eval, evalStart, evalSteps_eq_of_plain h hp he]
    | nodes => exact nomatch he
  | «variable» | call | binary | negate | union | filter => exact nomatch he

end Environment

namespace Logic

open Reading

variable {l : Logic} {t t' : Tree}

theorem value_eq_of_plain (hlibrary : l.library = .builtins) (h : t.SameFrame t') {e : Expr}
    (he : e.isPlain) {x : ViewNode} (hx : t.Shows x) (place : Nat × Nat) :
    l.value t' e x place = l.value t e x place := by
  have hpaired : (l.environment t x place).Paired t t' (l.environment t' x place) :=
    { document := rfl, document' := rfl, library := hlibrary, library' := hlibrary, current := rfl
      position := rfl, size := rfl, bindings := rfl, shows_current := hx }
  exact Environment.eval_eq_of_plain h hpaired he _

/-- Under plain rules an output reads the same nodes whatever the leaves hold, and has a result in all
cases or in none. -/
theorem outcome_plain (hlibrary : l.library = .builtins) (hplain : l.rules.Plain)
    (h : t.SameFrame t') (id : NodeId) (kind : BindKind) :
    (l.outcome t' ⟨id, .bind kind⟩).reads = (l.outcome t ⟨id, .bind kind⟩).reads ∧
      (l.outcome t' ⟨id, .bind kind⟩).result.isOk = (l.outcome t ⟨id, .bind kind⟩).result.isOk := by
  have htarget : t'.target = t.target := funext h.target_eq
  cases hrules : l.rules.rulesAt t id with
  | none =>
    simp only [outcome, RuleBook.rulesAt_eq h, hrules]
    exact ⟨rfl, rfl⟩
  | some rules =>
    obtain ⟨n, hn, hrange, hget⟩ := RuleBook.exists_definition_of_rulesAt hrules
    have hshows : t.Shows (.element id) :=
      ⟨Tree.contains_iff.mpr ⟨n, hn⟩, by simpa [Tree.isRange, hn, Node.isRange] using hrange⟩
    simp only [outcome, RuleBook.rulesAt_eq h, h.place_eq, htarget, hrules]
    cases hlookup : rules.expressions.lookup kind with
    | none => simp only [result, hlookup, and_self]
    | some e =>
      have he : e.isPlain :=
        List.all_eq_true.mp (hplain _ _ hget).2 _ (mem_of_lookup hlookup)
      have hvalue := value_eq_of_plain hlibrary h he hshows ((t.place id).getD (1, 1))
      simp only [result, hlookup, hvalue]
      cases hrun : (l.value t e (.element id) ((t.place id).getD (1, 1))).run (some .empty) with
      | mk out log =>
        cases out with
        | error error =>
          rw [run_bind_error hrun, run_bind_error hrun]
          exact ⟨rfl, rfl⟩
        | ok v =>
          rw [run_bind_ok hrun, run_bind_ok hrun]
          cases kind <;> exact ⟨rfl, rfl⟩

end Logic

end ReactiveForm
