import ReactiveForm.Proofs.Form.Ranking
import ReactiveForm.Proofs.Schedule.Kept
import ReactiveForm.Proofs.Snapshot

/-!
# What is entered determines the rest

In a form that computes nothing but requirements, contents and constraints, let each calculation of a
leaf read only what ranks below it. Then what has been entered determines all the rest: two ways of
entering it that lead to the same contents in the leaves that are not calculated end in the same
tree, whatever was entered in between and in which order, unless a cycle or a failure was reported.
-/

set_option autoImplicit false

namespace ReactiveForm

/-- The definition declares requirements, calculations and constraints only. -/
def Definition.Derives (e : Definition) : Prop :=
  ∀ kind ∈ e.kinds, kind ∈ [.bind .required, .bind .calculate, .bind .constraint]

namespace RuleBook

variable {d : Definition} {book : RuleBook}

theorem derives_ofDefinition (hbook : ofDefinition d = .ok book) (h : ∀ e ∈ d.parts, e.Derives) :
    book.Derives := by
  intro reference rules hrules kind hkind
  obtain ⟨e, he, _, hspells⟩ := exists_of_ofDefinition hbook hrules
  rw [hspells.kinds_eq] at hkind
  exact h e (List.mem_filter.mp he).1 kind hkind

theorem Derives.divided (h : book.Derives) : book.Divided := by
  intro reference rules hrules hcalculate hitemset
  simpa using h reference rules hrules _ hitemset

/-- Where definitions with one reference have the same binds, each of them declares what is
calculated. -/
theorem declares_ofDefinition (hbook : ofDefinition d = .ok book)
    (hsame : ∀ e ∈ d.binders, ∀ e' ∈ d.binders, e.reference = e'.reference → e.bind = e'.bind) :
    ∀ e ∈ d.parts, e.Declares book := by
  intro e he hrange rules hrules hkind
  obtain ⟨e', he', href, hspells⟩ := exists_of_ofDefinition hbook hrules
  have hbinder : e ∈ d.binders := List.mem_filter.mpr ⟨he, by simpa using hrange⟩
  rw [hsame e hbinder e' he' href.symm]
  rw [hspells.kinds_eq] at hkind
  obtain ⟨text, hbind⟩ : ∃ text, (BindKind.calculate, text) ∈ e'.bind.expressions := by
    simpa [Definition.kinds] using hkind
  obtain ⟨kind, _, hexpression⟩ := List.mem_filterMap.mp hbind
  obtain ⟨_, hdeclared, heq⟩ := Option.map_eq_some_iff.mp hexpression
  obtain rfl := (Prod.mk.inj heq).1
  cases htext : e'.bind.calculate with
  | none => simp [Bind.expression, Bind.text, htext] at hdeclared
  | some text => rfl

end RuleBook

theorem Failures.eq_of_isEmpty {f : Failures} (h : f.isEmpty) : f = {} := by
  obtain ⟨relevant, readonly, required, calculate, constraint, itemset⟩ := f
  simpa [isEmpty, OutputKind.all, BindKind.all, get] using h

theorem Failures.isEmpty_of_messages {f : Failures} (h : f.messages = []) : f.isEmpty := by
  refine List.all_eq_true.mpr fun kind hkind => ?_
  simpa using List.filterMap_eq_nil_iff.mp h kind hkind

theorem Failures.get_of_isEmpty {f : Failures} (h : f.isEmpty) (kind : OutputKind) :
    f.get kind = none := by
  rw [eq_of_isEmpty h]
  rcases kind with (_ | _ | _ | _ | _) | _ <;> rfl

namespace Node

variable {n n' : Node}

/-- What a text leaves in a node depends on the definition and on the items. -/
theorem writing_congr (hdefinition : n'.definition = n.definition)
    (hitems : n'.status.items = n.status.items) (hn : n.content.suits n.definition.type)
    (hn' : n'.content.suits n'.definition.type) (text : String) :
    n'.writing text = n.writing text := by
  obtain ⟨definition, parent, children, content, status⟩ := n
  obtain ⟨definition', parent', children', content', status'⟩ := n'
  obtain rfl : definition' = definition := hdefinition
  have hitems : status'.items = status.items := hitems
  cases definition' <;> cases content <;> cases content' <;>
    simp_all [Content.suits, Definition.type, writing, selecting, NodeType.isLeaf]

/-- Where nothing has failed, what holds of an output is a value that is stored. -/
theorem Holds.exists_stored {kind : OutputKind} {result : Except EvalError OutputValue}
    (h : n.Holds kind result) (hnone : n.status.failures.isEmpty) :
    ∃ v, result = .ok v ∧ n.Stores kind v := by
  cases result with
  | ok v => exact ⟨v, rfl, h.2⟩
  | error e =>
    have hfailure : n.status.failures.get kind = some e.message := h
    rw [Failures.get_of_isEmpty hnone] at hfailure
    exact nomatch hfailure

end Node

namespace Form

variable {P : Definition → Prop} {f g g₁ g₂ : Form}

/-! ## What entries leave as it is -/

/-- The second form has come of the first one by entries and passes, as far as can be seen from what
these leave as it is. -/
structure Retains (f g : Form) : Prop where
  logic : g.logic = f.logic
  frame : f.tree.SameFrame g.tree
  slots : f.tree.arena.SameSlots g.tree.arena
  keeps : f.tree.Keeps f.logic.rules g.tree

theorem Retains.refl (f : Form) : f.Retains f := ⟨rfl, .refl _, .refl _, .refl _⟩

theorem Retains.trans (hfirst : f.Retains g₁) (hthen : g₁.Retains g₂) : f.Retains g₂ where
  logic := hthen.logic.trans hfirst.logic
  frame := hfirst.frame.trans hthen.frame
  slots := hfirst.slots.trans hthen.slots
  keeps := by
    have hkeeps := hthen.keeps
    rw [hfirst.logic] at hkeeps
    exact hfirst.keeps.trans hkeeps

theorem Retains.exists_kept (hretains : f.Retains g) {id : NodeId} {n : Node}
    (hn : f.tree.get? id = some n) :
    ∃ n', g.tree.get? id = some n' ∧ n.Kept f.logic.rules n' := by
  rcases hretains.frame.get?_cases id with ⟨hnone, _⟩ | ⟨m, n', hm, hn', _⟩
  · cases hnone.symm.trans hn
  · obtain ⟨k, hk, hkept⟩ := hretains.keeps id n' hn'
    obtain rfl := Option.some.inj (hk.symm.trans hn)
    exact ⟨n', hn', hkept⟩

theorem Retains.relevant (hretains : f.Retains g) (hrelevant : f.tree.Relevant) :
    g.tree.Relevant := by
  intro id n' hn'
  obtain ⟨n, hn, hkept⟩ := hretains.keeps id n' hn'
  exact hkept.relevant.trans (hrelevant id n hn)

theorem Ready.retains_recalculate (hready : g.Ready P) (hbook : g.logic.rules.Derives) :
    g.Retains g.recalculate := by
  have hcoherent : g.start.tree.Coherent := hready.sound.toCoherent
  have hfollows : g.start.Follows (g.start.run g.logic.rules g.logic.outcome) :=
    Pass.follows_runUpTo g.logic.outcome _ hcoherent
  exact
    { logic := rfl
      frame := hfollows.frame
      slots := hfollows.slots
      keeps := Tree.keeps_of_develops hbook
        (Pass.develops_runUpTo g.logic.outcome _ hcoherent hready.within fun _ hq => hq) }

theorem Ready.retains_begins {r : Request} (hready : f.Ready P) (hpartial : r.isFull = false)
    (hbegins : Begins f r g) : f.Retains g := by
  cases hbegins with
  | @write id content _ hfits _ hopen =>
    exact
      { logic := rfl
        frame := (hready.sound.toCoherent.rewrite hfits id).1
        slots := Tree.sameSlots_rewrite _ _ _
        keeps := Tree.keeps_rewrite hopen content }
  | insert _ _ hfull => exact nomatch hfull.symm.trans hpartial
  | remove _ _ _ hfull => exact nomatch hfull.symm.trans hpartial
  | recompute hfull => exact nomatch hfull.symm.trans hpartial

theorem offers_of_partial {r : Request} (hpartial : r.isFull = false) : r.Offers P := by
  cases r with
  | addInstancesFrom => exact nomatch hpartial
  | setValue | select | deselect | addInstances | removeInstances | recompute => trivial

/-- Entries, refused or not, leave all the rest as it is. -/
theorem Ready.retains_performAll (hready : f.Ready P) (hbook : f.logic.rules.Derives)
    {rs : List Request} (hpartial : ∀ r ∈ rs, r.isFull = false) : f.Retains (f.performAll rs) := by
  induction rs generalizing f with
  | nil => exact .refl f
  | cons r rs ih =>
    obtain ⟨hr, hrs⟩ := List.forall_mem_cons.mp hpartial
    have hperform : f.performAll (r :: rs) = (f.perform r).performAll rs := rfl
    rw [hperform, perform_eq]
    cases hbegun : f.begun r with
    | error e => exact ih hready hbook hrs
    | ok g =>
      have hbegins := begins_of_begun hbegun
      obtain ⟨hg, hlogic⟩ := hready.begins (offers_of_partial hr) hbegins
      have hrules : g.logic.rules.Derives := hlogic ▸ hbook
      have hfirst := (hready.retains_begins hr hbegins).trans (hg.retains_recalculate hrules)
      exact hfirst.trans (ih hg.recalculate.1 hrules hrs)

/-! ## Forms in which nothing has failed -/

/-- The form has come of the first one by entries; it is at rest, and nothing has failed in it. -/
structure Fulfils (P : Definition → Prop) (f g : Form) : Prop
    extends g.Resting P f.logic.rules true where
  retains : f.Retains g
  unfailing : ∀ id n, g.tree.get? id = some n → n.status.failures.isEmpty

/-- Each calculation of a leaf reads only nodes all leaves of which rank below its own. -/
def Below (g : Form) (rank : NodeId → Nat) : Prop :=
  ∀ q ∈ g.logic.rules.outputs g.tree, q.kind = .bind .calculate → g.tree.isLeaf q.node →
    ∀ x ∈ (g.logic.outcome g.tree q).reads, ∀ y ∈ g.tree.subtree x, g.tree.isLeaf y →
      rank y < rank q.node

theorem Fulfils.mem_outputsAt (h : Fulfils P f g) {id : NodeId} {n : Node} {kind : OutputKind}
    (hn : g.tree.get? id = some n) (hcomputes : n.Computes f.logic.rules kind) :
    ⟨id, kind⟩ ∈ g.logic.rules.outputsAt g.tree id := by
  obtain ⟨hrange, rules, hrules, hkind⟩ := hcomputes
  refine RuleBook.mem_outputsAt.mpr ⟨rfl, rules, ?_, hkind⟩
  rw [h.retains.logic]
  simp [RuleBook.rulesAt, Tree.definition?, hn, hrange, hrules]

theorem Fulfils.exists_stored (h : Fulfils P f g) (hrelevant : f.tree.Relevant) {id : NodeId}
    {n : Node} {kind : OutputKind} (hn : g.tree.get? id = some n)
    (hcomputes : n.Computes f.logic.rules kind) :
    ∃ v, (g.logic.outcome g.tree ⟨id, kind⟩).result = .ok v ∧ v.Fits kind ∧ n.Stores kind v := by
  have hcoherent : g.start.tree.Coherent := h.ready.sound.toCoherent
  have hsettled := h.steady rfl ⟨id, kind⟩ (h.mem_outputsAt hn hcomputes)
    (Pass.isSuppressed_of_relevant (h.retains.relevant hrelevant) hcoherent ⟨n, hn⟩)
  obtain ⟨m, hm, hholds⟩ := hsettled.holds
  obtain rfl : n = m := Option.some.inj (hn.symm.trans hm)
  obtain ⟨v, hv, hstores⟩ := hholds.exists_stored (h.unfailing id n hn)
  exact ⟨v, hv, Logic.fits_of_result hv, hstores⟩

section

variable (htraces : f.tree.Traces f.logic.outcome) (hrelevant : f.tree.Relevant)
  (h₁ : Fulfils P f g₁) (h₂ : Fulfils P f g₂)

include h₁ h₂

theorem Fulfils.sameFrame : g₁.tree.SameFrame g₂.tree := h₁.retains.frame.symm.trans h₂.retains.frame

include htraces in
theorem Fulfils.outcome_eq {q : Output}
    (hagree : ∀ x ∈ (g₁.logic.outcome g₁.tree q).reads, g₁.tree.AgreeBelow g₂.tree (.element x)) :
    g₂.logic.outcome g₂.tree q = g₁.logic.outcome g₁.tree q := by
  rw [h₁.retains.logic] at hagree ⊢
  rw [h₂.retains.logic]
  exact htraces _ _ q h₁.retains.frame (h₁.sameFrame h₂) hagree

include hrelevant

/-- What an output comes to in both is stored in both. -/
theorem Fulfils.stores_both {id : NodeId} {n₁ n₂ : Node} {kind : OutputKind}
    (hsame : g₂.logic.outcome g₂.tree ⟨id, kind⟩ = g₁.logic.outcome g₁.tree ⟨id, kind⟩)
    (hn₁ : g₁.tree.get? id = some n₁) (hn₂ : g₂.tree.get? id = some n₂)
    (hcomputes₁ : n₁.Computes f.logic.rules kind) (hcomputes₂ : n₂.Computes f.logic.rules kind) :
    ∃ v : OutputValue, v.Fits kind ∧ n₁.Stores kind v ∧ n₂.Stores kind v := by
  obtain ⟨v, hv, hfits, hstores₁⟩ := h₁.exists_stored hrelevant hn₁ hcomputes₁
  obtain ⟨w, hw, _, hstores₂⟩ := h₂.exists_stored hrelevant hn₂ hcomputes₂
  rw [hsame, hv] at hw
  obtain rfl := Except.ok.inj hw
  exact ⟨v, hfits, hstores₁, hstores₂⟩

/-- A content that comes of one calculation is the same in both. -/
theorem Fulfils.calculated_eq {id : NodeId} {n₁ n₂ : Node}
    (hsame : g₂.logic.outcome g₂.tree ⟨id, .bind .calculate⟩
      = g₁.logic.outcome g₁.tree ⟨id, .bind .calculate⟩)
    (hn₁ : g₁.tree.get? id = some n₁) (hn₂ : g₂.tree.get? id = some n₂)
    (hdefinition : n₂.definition = n₁.definition) (hitems : n₂.status.items = n₁.status.items)
    (hcomputes : n₁.Computes f.logic.rules (.bind .calculate)) : n₂.content = n₁.content := by
  obtain ⟨v, hfits, hstores₁, hstores₂⟩ := h₁.stores_both hrelevant h₂ hsame hn₁ hn₂ hcomputes
    ((Node.computes_congr _ hdefinition _).mpr hcomputes)
  cases v with
  | flag b => exact absurd rfl hfits
  | items list => exact hfits.elim
  | text s =>
    have hwritten₁ : n₁.writing s = n₁.content := hstores₁
    have hwritten₂ : n₂.writing s = n₂.content := hstores₂
    rw [← hwritten₁, ← hwritten₂]
    exact Node.writing_congr hdefinition hitems (h₁.ready.sound.toCoherent.filled hn₁)
      (h₂.ready.sound.toCoherent.filled hn₂) s

/-- A flag of the status that an output computes is the same in both. -/
theorem Fulfils.flag_eq {id : NodeId} {n₁ n₂ : Node} {kind : BindKind} (hkind : kind ≠ .calculate)
    (hsame : g₂.logic.outcome g₂.tree ⟨id, .bind kind⟩ = g₁.logic.outcome g₁.tree ⟨id, .bind kind⟩)
    (hn₁ : g₁.tree.get? id = some n₁) (hn₂ : g₂.tree.get? id = some n₂)
    (hdefinition : n₂.definition = n₁.definition)
    (hcomputes : n₁.Computes f.logic.rules (.bind kind)) {flag : Status → Bool}
    (hflag : ∀ (n : Node) b, n.Stores (.bind kind) (.flag b) → flag n.status = b) :
    flag n₂.status = flag n₁.status := by
  obtain ⟨v, hfits, hstores₁, hstores₂⟩ := h₁.stores_both hrelevant h₂ hsame hn₁ hn₂ hcomputes
    ((Node.computes_congr _ hdefinition _).mpr hcomputes)
  cases v with
  | flag b => exact (hflag n₂ b hstores₂).trans (hflag n₁ b hstores₁).symm
  | text => exact absurd hfits hkind
  | items => exact hfits.elim

include htraces

/-- Contents agree: those that are not calculated to start with, and by the ranks of their leaves those
that are calculated. -/
theorem Fulfils.content?_eq {rank : NodeId → Nat} (hbelow : g₁.Below rank)
    (hentered : ∀ id, f.tree.isLeaf id → f.tree.isCalculated id = false →
      g₂.tree.content? id = g₁.tree.content? id) (id : NodeId) :
    g₂.tree.content? id = g₁.tree.content? id := by
  induction hrank : rank id using Nat.strongRecOn generalizing id with
  | ind k ih =>
    cases hl : f.tree.isLeaf id with
    | false => exact (h₂.retains.frame.inner id hl).trans (h₁.retains.frame.inner id hl).symm
    | true =>
      cases hcalculated : f.tree.isCalculated id with
      | false => exact hentered id hl hcalculated
      | true =>
        obtain ⟨n, hn, _⟩ := Tree.isLeaf_iff.mp hl
        obtain ⟨n₁, hn₁, hkept₁⟩ := h₁.retains.exists_kept hn
        obtain ⟨n₂, hn₂, hkept₂⟩ := h₂.retains.exists_kept hn
        have hdeclares : n.definition.bind.calculate.isSome := by
          simpa [Tree.isCalculated, hn] using hcalculated
        rw [Tree.content?, Tree.content?, hn₁, hn₂, Option.map_some, Option.map_some]
        congr 1
        by_cases hcomputes : n.Computes f.logic.rules (.bind .calculate)
        · have hcomputes₁ := (Node.computes_congr _ hkept₁.definition _).mpr hcomputes
          have hlisted := (RuleBook.mem_outputs h₁.ready.sound.connected).mpr
            (h₁.mem_outputsAt hn₁ hcomputes₁)
          have hleaf₁ : g₁.tree.isLeaf id := by rw [h₁.retains.frame.isLeaf_eq, hl]
          -- all that the calculation reads ranks below it
          have hsame := h₁.outcome_eq htraces h₂ fun x hx y hy hleaf =>
            ih (rank y) (hrank ▸ hbelow _ hlisted rfl hleaf₁ x hx y hy hleaf) y rfl
          exact h₁.calculated_eq hrelevant h₂ hsame hn₁ hn₂
            (hkept₂.definition.trans hkept₁.definition.symm) (hkept₂.items.trans hkept₁.items.symm)
            hcomputes₁
        · exact (hkept₂.content hdeclares hcomputes).trans (hkept₁.content hdeclares hcomputes).symm

theorem Fulfils.get?_eq (hcontents : ∀ id, g₂.tree.content? id = g₁.tree.content? id)
    (id : NodeId) : g₂.tree.get? id = g₁.tree.get? id := by
  cases hn₁ : g₁.tree.get? id with
  | none =>
    rcases (h₁.sameFrame h₂).get?_cases id with ⟨_, hnone⟩ | ⟨m, _, hm, _⟩
    · exact hnone
    · cases hm.symm.trans hn₁
  | some n₁ =>
    obtain ⟨n, hn, hkept₁⟩ := h₁.retains.keeps id n₁ hn₁
    obtain ⟨n₂, hn₂, hkept₂⟩ := h₂.retains.exists_kept hn
    have hcontent : n₂.content = n₁.content := by
      simpa [Tree.content?, hn₁, hn₂] using hcontents id
    have hsame (kind : OutputKind) := h₁.outcome_eq htraces h₂ (q := ⟨id, kind⟩)
      fun _ _ y _ _ => hcontents y
    have hdefinition := hkept₂.definition.trans hkept₁.definition.symm
    have hcomputes₁ := Node.computes_congr f.logic.rules hkept₁.definition
    -- a flag that is computed comes to the same in both; one that is not has stayed as it was
    have hrequired : n₂.status.required = n₁.status.required := by
      by_cases hcomputes : n.Computes f.logic.rules (.bind .required)
      · have hkind : BindKind.required ≠ .calculate := by decide
        exact h₁.flag_eq hrelevant h₂ hkind (hsame _) hn₁ hn₂ hdefinition
          ((hcomputes₁ _).mpr hcomputes) fun _ _ h => h
      · exact (hkept₂.required hcomputes).trans (hkept₁.required hcomputes).symm
    have hsatisfied : n₂.status.satisfied = n₁.status.satisfied := by
      by_cases hcomputes : n.Computes f.logic.rules (.bind .constraint)
      · have hkind : BindKind.constraint ≠ .calculate := by decide
        exact h₁.flag_eq hrelevant h₂ hkind (hsame _) hn₁ hn₂ hdefinition
          ((hcomputes₁ _).mpr hcomputes) fun _ _ h => h
      · exact (hkept₂.satisfied hcomputes).trans (hkept₁.satisfied hcomputes).symm
    have hfailures : n₂.status.failures = n₁.status.failures := by
      rw [Failures.eq_of_isEmpty (h₁.unfailing id n₁ hn₁),
        Failures.eq_of_isEmpty (h₂.unfailing id n₂ hn₂)]
    have hframe : n₂.frame = n₁.frame := hkept₂.frame.trans hkept₁.frame.symm
    have hrelevance := hkept₂.relevant.trans hkept₁.relevant.symm
    have hlock := hkept₂.readonly.trans hkept₁.readonly.symm
    have hitems := hkept₂.items.trans hkept₁.items.symm
    rw [hn₂]
    congr 1
    -- all parts of the two nodes have been compared
    obtain ⟨_, _, _, _, _, _, _, _, _, _⟩ := n₁
    obtain ⟨_, _, _, _, _, _, _, _, _, _⟩ := n₂
    simp_all [Node.frame]

theorem Fulfils.tree_eq {rank : NodeId → Nat} (hbelow : g₁.Below rank)
    (hentered : ∀ id, f.tree.isLeaf id → f.tree.isCalculated id = false →
      g₂.tree.content? id = g₁.tree.content? id) : g₂.tree = g₁.tree := by
  have hcontents := h₁.content?_eq htraces hrelevant h₂ hbelow hentered
  have hget := h₁.get?_eq htraces hrelevant h₂ hcontents
  have hroot : g₂.tree.root = g₁.tree.root := (h₁.sameFrame h₂).root
  have hslots : g₁.tree.arena.SameSlots g₂.tree.arena := by
    refine ⟨h₂.retains.slots.free.trans h₁.retains.slots.free.symm, fun i => ?_⟩
    exact (h₂.retains.slots.slots i).trans (h₁.retains.slots.slots i).symm
  have harena : g₂.tree.arena = g₁.tree.arena := hslots.eq hget
  generalize g₁.tree = t₁ at hroot harena
  generalize g₂.tree = t₂ at hroot harena
  cases t₁
  cases t₂
  simp_all

end

/-! ## Two ways to the same contents -/

theorem steadyAfter_of_passes {rs : List Request}
    (hcycles : ∀ g ∈ f.passes rs, g.recalculate.cycles = []) : f.steadyAfter true rs := by
  induction rs generalizing f with
  | nil => rfl
  | cons r rs ih =>
    rw [passes] at hcycles
    rw [steadyAfter, run_action, perform_eq]
    cases hbegun : f.begun r with
    | error e =>
      rw [hbegun] at hcycles
      exact ih hcycles
    | ok g =>
      rw [hbegun] at hcycles
      obtain ⟨hfirst, hrest⟩ := List.forall_mem_cons.mp hcycles
      simpa [after, hfirst] using ih hrest

/-- The requests are entries. No pass after them reports a cycle, and in the end the snapshot of the
form shows no error. -/
structure Flawless (f : Form) (rs : List Request) : Prop where
  entries : ∀ r ∈ rs, r.isFull = false
  cycles : ∀ g ∈ f.passes rs, g.recalculate.cycles = []
  errors : ∀ s, (f.performAll rs).snapshot? (f.performAll rs).root = some s →
    ∀ row ∈ s.rows, row.errors = []

theorem Flawless.fulfils {rs : List Request} (h : f.Flawless rs)
    (hP : ∀ d, P d → Declared f.logic.rules d) (htraceable : f.logic.rules.Traceable)
    (hderives : f.logic.rules.Derives) (hrest : f.Resting P f.logic.rules true) :
    Fulfils P f (f.performAll rs) := by
  have hend := hrest.performAll hP htraceable hderives.divided
    fun r hr => offers_of_partial (h.entries r hr)
  rw [steadyAfter_of_passes h.cycles] at hend
  refine ⟨hend, hrest.ready.retains_performAll hderives h.entries, fun id n hn => ?_⟩
  have hconnected := hend.ready.sound.connected
  obtain ⟨root, hroot, _⟩ := hconnected.root_live
  obtain ⟨_, hsnapshot⟩ := Snapshot.exists_upTo hroot (f.performAll rs).tree.arena.size
  obtain ⟨children, hrow⟩ := Snapshot.exists_row hconnected hn hsnapshot
  have herrors := h.errors _ hsnapshot _ hrow
  exact Failures.isEmpty_of_messages (List.append_eq_nil_iff.mp herrors).1

/-- In a form that computes nothing but requirements, contents and constraints, two ways to enter the
same contents into the leaves that are not calculated lead to the same snapshot, if all expressions
can be traced, definitions with one reference have the same binds, each calculation of a leaf reads
what ranks below it, and neither cycles nor errors are reported. -/
theorem snapshot_determined {description : Description} {d : Definition} {config : Config}
    {now : Moment} (hbuild : description.toDefinition = .ok d)
    (hload : load d config now = .ok f) (htraceable : f.logic.rules.Traceable)
    (hderives : ∀ e ∈ d.parts, e.Derives)
    (hsame : ∀ e ∈ d.binders, ∀ e' ∈ d.binders, e.reference = e'.reference → e.bind = e'.bind)
    (hcycles : f.cycles = []) {rs₁ rs₂ : List Request} (h₁ : f.Flawless rs₁) (h₂ : f.Flawless rs₂)
    {rank : NodeId → Nat} (hbelow : (f.performAll rs₁).Below rank)
    (hentered : ∀ id, f.tree.isLeaf id → f.tree.isCalculated id = false →
      (f.performAll rs₂).tree.content? id = (f.performAll rs₁).tree.content? id) :
    (f.performAll rs₂).snapshot? (f.performAll rs₂).root
      = (f.performAll rs₁).snapshot? (f.performAll rs₁).root := by
  obtain ⟨hshaped, hroot⟩ := Description.shaped_toDefinition hbuild
  obtain ⟨rules, hrules, rfl⟩ := exists_of_load hload
  have hdeclares := RuleBook.declares_ofDefinition hrules hsame
  have hbook : rules.Derives := RuleBook.derives_ofDefinition hrules hderives
  have hparts : ∀ e ∈ d.parts, Declared rules e := fun e he => ⟨hshaped.part d he, hdeclares e he⟩
  -- the form is at rest after loading, and from rest flawless entries fulfil the rules
  have hrest := resting_load (fun _ hd => hd) htraceable hbook.divided hroot hparts hload rfl
  rw [hcycles] at hrest
  have hfirst := (ready_opened config now rules hroot hparts).marked.retains_recalculate hbook
  have hrelevant := hfirst.relevant (Tree.relevant_ofDefinition d)
  have hw := hrest.ready.wellFormed fun _ hd => hd.1
  have htraces := Logic.traces hrest.library htraceable hw
  have hfulfils₁ := h₁.fulfils (fun _ hd => hd) htraceable hbook hrest
  have hfulfils₂ := h₂.fulfils (fun _ hd => hd) htraceable hbook hrest
  have htree := hfulfils₁.tree_eq htraces hrelevant hfulfils₂ hbelow hentered
  unfold snapshot? root
  rw [htree]

end Form

/-! ## A form that is filled in twice -/

/-- What is entered for `a` is repeated in `b`; neither may be empty. -/
def Description.bill : Description where
  name := "f"
  children := [{ name := "a", bind := { constraint := some "/f/a" } },
    { name := "b", bind := { required := some "'1'", calculate := some "/f/a" } }]

def Definition.bill : Definition :=
  .root ⟨"/f", "f", {}, none, none⟩ [
    .value ⟨"/f/a", "a", { constraint := some "/f/a" }, none, none⟩ "",
    .value ⟨"/f/b", "b", { required := some "'1'", calculate := some "/f/a" }, none, none⟩ ""]

def RuleBook.bill : RuleBook :=
  [("/f/b", { expressions := [(.required, .text "1"), (.calculate, .input)] }),
    ("/f/a", { expressions := [(.constraint, .input)] }), ("/f", {})]

set_option maxRecDepth 20000 in
theorem Description.toDefinition_bill : Description.bill.toDefinition = .ok .bill := by rfl

set_option maxRecDepth 20000 in
theorem RuleBook.ofDefinition_bill : RuleBook.ofDefinition .bill = .ok .bill := by rfl

theorem RuleBook.plain_bill : RuleBook.bill.Plain := RuleBook.forall_get? (by decide)

namespace Form

def bill : Form := (opened .bill {} .epoch .bill).marked.recalculate

theorem load_bill : load .bill = .ok bill := load_of_ofDefinition RuleBook.ofDefinition_bill {} .epoch

/-- An entry that is corrected. -/
def billSlow : List Request := [.setValue ⟨1, 0⟩ "x", .setValue ⟨1, 0⟩ "y"]

/-- The same entry at one go, after one that is refused. -/
def billFast : List Request := [.setValue ⟨2, 0⟩ "z", .setValue ⟨1, 0⟩ "y"]

instance (f : Form) (rs : List Request) : Decidable (f.Flawless rs) :=
  decidable_of_iff ((∀ r ∈ rs, r.isFull = false) ∧ (∀ g ∈ f.passes rs, g.recalculate.cycles = []) ∧
      ∀ s ∈ (f.performAll rs).snapshot? (f.performAll rs).root, ∀ row ∈ s.rows, row.errors = [])
    ⟨fun ⟨hentries, hcycles, herrors⟩ => ⟨hentries, hcycles, herrors⟩,
      fun h => ⟨h.entries, h.cycles, h.errors⟩⟩

theorem snapshot_determined_bill :
    (bill.performAll billSlow).value? ⟨2, 0⟩ = some "y" ∧
      (bill.performAll billFast).snapshot? (bill.performAll billFast).root
        = (bill.performAll billSlow).snapshot? (bill.performAll billSlow).root := by
  have hvalue : (bill.performAll billSlow).value? ⟨2, 0⟩ = some "y" := by decide +kernel
  have hderives : ∀ e ∈ Definition.bill.parts, e.Derives := by
    unfold Definition.Derives
    decide +kernel
  have hsame : ∀ e ∈ Definition.bill.binders, ∀ e' ∈ Definition.bill.binders,
      e.reference = e'.reference → e.bind = e'.bind := by
    decide +kernel
  have hslow : bill.Flawless billSlow := by decide +kernel
  have hfast : bill.Flawless billFast := by decide +kernel
  have hbelow : (bill.performAll billSlow).Below (·.index) := by
    unfold Below
    decide +kernel
  have hchecked : ∀ id ∈ bill.tree.nodes, bill.tree.isCalculated id = false →
      (bill.performAll billFast).tree.content? id
        = (bill.performAll billSlow).tree.content? id := by
    decide +kernel
  have hentered : ∀ id, bill.tree.isLeaf id → bill.tree.isCalculated id = false →
      (bill.performAll billFast).tree.content? id
        = (bill.performAll billSlow).tree.content? id := by
    intro id hleaf
    obtain ⟨n, hn, _⟩ := Tree.isLeaf_iff.mp hleaf
    exact hchecked id ((sameFrame_load load_bill).2.connected.mem_nodes_iff.mpr ⟨n, hn⟩)
  have hcycles : bill.cycles = [] := by decide +kernel
  exact ⟨hvalue, snapshot_determined Description.toDefinition_bill load_bill
    RuleBook.plain_bill.traceable hderives hsame hcycles hslow hfast hbelow hentered⟩

end Form

end ReactiveForm
