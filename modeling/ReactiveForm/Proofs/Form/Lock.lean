import ReactiveForm.Proofs.Form.Idempotence
import ReactiveForm.Proofs.Form.Rules

/-!
# Calculated nodes and read-only nodes

Two questions are asked about calculations. Whether entries are refused is asked of the definition
of the node itself, and a blank calculation counts; whether the content is computed is asked of the
first definition with its reference, and there a blank calculation is none.
-/

set_option autoImplicit false

namespace ReactiveForm

namespace Definition

/-- The first part with the reference declares a calculation that is not blank. -/
def computes (d : Definition) (reference : String) : Bool :=
  (d.first? reference).any fun e => (e.bind.expression .calculate).isSome

theorem bind_mem_kinds {e : Definition} {kind : BindKind} :
    .bind kind ∈ e.kinds ↔ (e.bind.expression kind).isSome := by
  have hall : kind ∈ BindKind.all := by cases kind <;> decide
  simp only [kinds, Bind.expressions, List.mem_append, List.mem_map, List.mem_filterMap,
    Option.map_eq_some_iff, Option.mem_toList, reduceCtorEq, and_false, exists_false, or_false]
  rw [Option.isSome_iff_exists]
  constructor
  · rintro ⟨_, ⟨kind', _, text, htext, rfl⟩, hkind⟩
    obtain rfl : kind' = kind := OutputKind.bind.inj hkind
    exact ⟨text, htext⟩
  · rintro ⟨text, htext⟩
    exact ⟨(kind, text), ⟨kind, hall, text, htext, rfl⟩, rfl⟩

end Definition

theorem Bind.expression_isSome {b : Bind} {kind : BindKind} : (b.expression kind).isSome ↔
    ∃ text, b.text kind = some text ∧ Text.trimmed text ≠ "" := by
  unfold expression
  cases b.text kind with
  | none => simp
  | some text => simp

/-- An item that may be selected: one that is offered, or any where none are declared. -/
def Node.Accepts (n : Node) (item : String) : Prop :=
  n.definition.items = [] ∧ n.definition.itemset = none ∨ ∃ i ∈ n.status.items, i.value = item

namespace Form

variable {P : Definition → Prop} {f : Form} {id : NodeId} {n : Node}

/-! ## What is computed -/

/-- The content of a live node is computed where the first definition with its reference says so. -/
theorem Reachable.calculate_mem_outputsAt (h : f.Reachable P) (hn : f.tree.get? id = some n)
    (hrange : n.definition.type ≠ .range) :
    ⟨id, .bind .calculate⟩ ∈ f.logic.rules.outputsAt f.tree id ↔
      f.definition.computes n.definition.reference := by
  obtain ⟨_, hfirst, hother⟩ := RuleBook.entered_of_ofDefinition h.rules
  have hrules : f.logic.rules.rulesAt f.tree id
      = Table.get? f.logic.rules n.definition.reference := by
    simp [RuleBook.rulesAt, Tree.definition?, hn, hrange]
  unfold RuleBook.outputsAt Definition.computes
  rw [hrules]
  cases hd : f.definition.first? n.definition.reference with
  | none =>
    rw [hother _ hd rfl]
    simp
  | some e =>
    obtain ⟨rules, hget, hspells⟩ := hfirst _ e hd rfl
    rw [hget]
    simp [hspells.kinds_eq, Definition.bind_mem_kinds]

/-! ## What is refused -/

/-- The answer to an entry at a node that is relevant and that no condition locks. -/
def answer (f : Form) (id : NodeId) (n : Node) : Except Refusal Unit :=
  if n.definition.bind.calculate.isSome then .error (.readonly (f.tree.reference id)) else .ok ()

theorem checkOpen_eq_answer (hn : f.tree.get? id = some n) (hon : f.tree.isRelevant id)
    (hfree : ∀ x ∈ id :: f.tree.ancestors id, f.tree.hasLock x = false) :
    f.checkOpen id (f.tree.reference id) = f.answer id n := by
  have hlock : (id :: f.tree.ancestors id).any f.tree.hasLock = false :=
    List.any_eq_false.mpr fun x hx => by simp [hfree x hx]
  have hreadonly : f.tree.isReadonly id = n.definition.bind.calculate.isSome := by
    simp [Tree.isReadonly, Tree.isCalculated, hn, hlock]
  simp [checkOpen, answer, hon, hreadonly]

theorem checkLive_of_get? (hn : f.tree.get? id = some n) :
    f.checkLive id = .ok (f.tree.reference id) := by
  have hlive : f.tree.contains id := Arena.contains_iff.mpr ⟨n, hn⟩
  exact if_pos hlive

theorem content?_of_value (hfilled : f.tree.Filled) (hn : f.tree.get? id = some n)
    (htype : n.definition.type = .value) : ∃ text, f.tree.content? id = some (.text text) := by
  have hsuits := hfilled hn
  rw [htype] at hsuits
  cases hc : n.content with
  | text before => exact ⟨before, by simp [Tree.content?, hn, hc]⟩
  | selection | inner =>
    rw [hc] at hsuits
    cases hsuits

theorem content?_of_select (hfilled : f.tree.Filled) (hn : f.tree.get? id = some n)
    (htype : n.definition.type = .select) : ∃ values, n.content = .selection values := by
  have hsuits := hfilled hn
  rw [htype] at hsuits
  cases hc : n.content with
  | selection values => exact ⟨values, rfl⟩
  | text | inner =>
    rw [hc] at hsuits
    cases hsuits

theorem setValue_eq_checkOpen (hfilled : f.tree.Filled) (hn : f.tree.get? id = some n)
    (htype : n.definition.type = .value) (text : String) :
    ((setValue id text).run f).1 = f.checkOpen id (f.tree.reference id) := by
  obtain ⟨before, hbefore⟩ := content?_of_value hfilled hn htype
  rw [run_setValue]
  simp only [entered, checkLive_of_get? hn, hbefore]
  change (f.after (f.checkOpen id (f.tree.reference id) >>= fun _ => pure _)).1 = _
  cases f.checkOpen id (f.tree.reference id) <;> rfl

theorem select_eq_checkOpen (hfilled : f.tree.Filled) (hn : f.tree.get? id = some n)
    (htype : n.definition.type = .select) {item : String} (hitem : n.Accepts item) :
    ((select id item).run f).1 = f.checkOpen id (f.tree.reference id) := by
  obtain ⟨values, hvalues⟩ := content?_of_select hfilled hn htype
  rw [run_select]
  obtain ⟨definition, parent, children, content, status⟩ := n
  cases definition with
  | select header mode default items itemset =>
    obtain rfl : content = .selection values := hvalues
    have hchoice : f.checkChoice id item
        = f.checkOpen id (f.tree.reference id) >>= fun _ => .ok (mode, values) := by
      -- an item that is accepted gets past the check of the items, whether the selection is open or
      -- not
      have hopen : ((!items.isEmpty || itemset.isSome) && !status.items.any (·.value == item))
          = false := by
        rcases hitem with ⟨hitems, hitemset⟩ | ⟨i, hi, hvalue⟩
        · obtain rfl : items = [] := hitems
          obtain rfl : itemset = none := hitemset
          rfl
        · have hany : status.items.any (·.value == item) :=
            List.any_eq_true.mpr ⟨i, hi, beq_iff_eq.mpr hvalue⟩
          rw [hany, Bool.not_true, Bool.and_false]
      simp only [checkChoice, checkLive_of_get? hn, hn, hopen]
      rfl
    simp only [begun, chosen, hchoice]
    cases f.checkOpen id (f.tree.reference id) <;> rfl
  | root | group | range | inst | value => cases htype

/-- In a form that has been reached, take a live node that is relevant and that no condition locks,
its own and those of its ancestors. Entries are refused as read-only exactly where the definition of
the node has a calculation, be it blank; the content is computed exactly where the first definition
with its reference has one that is not blank. The two agree where the definition of the node is that
first definition and its calculation is not blank. -/
theorem locked_iff_declared (h : f.Reachable fun _ => True) (hn : f.tree.get? id = some n)
    (hon : f.tree.isRelevant id)
    (hfree : ∀ x ∈ id :: f.tree.ancestors id, f.tree.hasLock x = false) :
    let computed := ⟨id, .bind .calculate⟩ ∈ f.logic.rules.outputsAt f.tree id
    (n.definition.type = .value → ∀ text, ((setValue id text).run f).1 = f.answer id n) ∧
    (n.definition.type = .select → ∀ item, n.Accepts item →
      ((select id item).run f).1 = f.answer id n) ∧
    (n.definition.type ≠ .range →
      (computed ↔ f.definition.computes n.definition.reference) ∧
      (f.definition.first? n.definition.reference = some n.definition →
        (∀ text, n.definition.bind.calculate = some text → Text.trimmed text ≠ "") →
        (n.definition.bind.calculate.isSome ↔ computed))) := by
  have hfilled : f.tree.Filled := h.ready.1.sound.filled
  have hanswer := checkOpen_eq_answer hn hon hfree
  refine ⟨fun htype text => ?_, fun htype item hitem => ?_, fun hrange => ?_⟩
  · rw [setValue_eq_checkOpen hfilled hn htype, hanswer]
  · rw [select_eq_checkOpen hfilled hn htype hitem, hanswer]
  · have hcomputed := h.calculate_mem_outputsAt hn hrange
    refine ⟨hcomputed, fun hfirst hblank => ?_⟩
    rw [hcomputed, Definition.computes, hfirst, Option.any_some, Bind.expression_isSome,
      Option.isSome_iff_exists]
    exact ⟨fun ⟨text, htext⟩ => ⟨text, htext, hblank text htext⟩,
      fun ⟨text, htext, _⟩ => ⟨text, htext⟩⟩

/-- The content of the instance is computed, as its template declares, but entries are accepted. -/
theorem locked_iff_declared_shared : ((setValue ⟨3, 0⟩ "b").run shared).1 = .ok () ∧
    ⟨⟨3, 0⟩, .bind .calculate⟩ ∈ shared.logic.rules.outputsAt shared.tree ⟨3, 0⟩ := by
  have hnode : (shared.tree.get? ⟨3, 0⟩).map (fun n => (n.definition.header, n.definition.type))
      = some (⟨"/f/r/x", "x", {}, none, none⟩, .value) := by decide +kernel
  obtain ⟨n, hn, heq⟩ := Option.map_eq_some_iff.mp hnode
  obtain ⟨hheader, htype⟩ := Prod.mk.inj heq
  have hreference : n.definition.reference = "/f/r/x" := congrArg Header.reference hheader
  have hopen : n.definition.bind.calculate = none := congrArg (·.bind.calculate) hheader
  have hreachable : shared.Reachable fun _ => True := .load rfl (fun _ _ => trivial) load_shared
  obtain ⟨hvalue, -, hcomputed⟩ := locked_iff_declared hreachable hn (by decide +kernel)
    (by decide +kernel)
  have hcomputes : shared.definition.computes n.definition.reference := by
    rw [hreference]
    decide +kernel
  constructor
  · rw [hvalue htype "b", answer, hopen]
    rfl
  · exact (hcomputed (by simp [htype])).1.mpr hcomputes

end Form

/-! ## A calculation without an expression -/

def Description.idle : Description where
  name := "f"
  children := [{ name := "a", bind := { calculate := some " " } }]

def Definition.idle : Definition :=
  .root ⟨"/f", "f", {}, none, none⟩ [.value ⟨"/f/a", "a", { calculate := some " " }, none, none⟩ ""]

def RuleBook.idle : RuleBook := [("/f/a", {}), ("/f", {})]

set_option maxRecDepth 20000 in
theorem Description.toDefinition_idle : Description.idle.toDefinition = .ok .idle := by rfl

set_option maxRecDepth 20000 in
theorem RuleBook.ofDefinition_idle : RuleBook.ofDefinition .idle = .ok .idle := by rfl

namespace Form

def idle : Form := (opened .idle {} .epoch .idle).marked.recalculate

theorem load_idle : load .idle = .ok idle :=
  load_of_ofDefinition RuleBook.ofDefinition_idle {} .epoch

/-- The blank calculation computes nothing, but it refuses all entries. -/
theorem idle_locked_not_computed :
    ¬ ∀ (description : Description) (d : Definition), description.toDefinition = .ok d →
      ∀ f : Form, f.Reachable (fun _ => True) → f.definition = d →
        ∀ id n, f.tree.get? id = some n → f.tree.isRelevant id →
          (∀ x ∈ id :: f.tree.ancestors id, f.tree.hasLock x = false) →
          (n.definition.type = .value → ∀ text,
            (((setValue id text).run f).1 = .error (.readonly (f.tree.reference id)) ↔
              ⟨id, .bind .calculate⟩ ∈ f.logic.rules.outputsAt f.tree id)) ∧
          (n.definition.type = .select → ∀ item, n.Accepts item →
            (((select id item).run f).1 = .error (.readonly (f.tree.reference id)) ↔
              ⟨id, .bind .calculate⟩ ∈ f.logic.rules.outputsAt f.tree id)) := by
  intro h
  have hnode : (idle.tree.get? ⟨1, 0⟩).map (·.definition.type) = some .value := by decide +kernel
  obtain ⟨n, hn, htype⟩ := Option.map_eq_some_iff.mp hnode
  have hreachable : idle.Reachable fun _ => True := .load rfl (fun _ _ => trivial) load_idle
  have hiff := (h _ _ Description.toDefinition_idle idle hreachable rfl ⟨1, 0⟩ n hn
    (by decide +kernel) (by decide +kernel)).1 htype "x"
  have hrefused : ((setValue ⟨1, 0⟩ "x").run idle).1
      = .error (.readonly (idle.tree.reference ⟨1, 0⟩)) := by
    rw [run_setValue]
    decide +kernel
  have hnone : idle.logic.rules.outputsAt idle.tree ⟨1, 0⟩ = [] := by decide +kernel
  have hcomputed := hiff.mp hrefused
  rw [hnone] at hcomputed
  exact nomatch hcomputed

end Form

end ReactiveForm
