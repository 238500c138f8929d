import ReactiveForm.Proofs.Definition.Build
import ReactiveForm.Proofs.Form.Passes
import ReactiveForm.Proofs.Outcome
import ReactiveForm.Proofs.Schedule.Repeat

/-!
# Computing again changes nothing

A pass over all outputs settles them, unless it reports a cycle, and a pass after a write keeps
them settled. So as long as no cycle has been reported, a form is at rest after every request:
computing all outputs again finds what is there already.
-/

set_option autoImplicit false

namespace ReactiveForm

/-- Where the content of a node with this definition is calculated, the definition says so. -/
def Definition.Declares (book : RuleBook) (d : Definition) : Prop :=
  d.type ≠ .range → ∀ rules ∈ Table.get? book d.reference,
    OutputKind.bind .calculate ∈ rules.kinds → d.bind.calculate.isSome

instance (book : RuleBook) (d : Definition) : Decidable (d.Declares book) :=
  inferInstanceAs (Decidable (d.type ≠ .range → ∀ rules ∈ Table.get? book d.reference,
    OutputKind.bind .calculate ∈ rules.kinds → d.bind.calculate.isSome))

/-- What is stored for an output does not hang on a content that a revision leaves alone, unless
the output calculates that content. -/
theorem Node.passes_stable {kind : OutputKind} {n : Node} {c : Content}
    (hkind : kind ≠ .bind .calculate) (hstable : ({ n with content := c } : Node).revising = c) :
    Passes kind n { n with content := c } := by
  by_cases hitems : kind = .itemset
  · subst hitems
    intro result hresult
    cases result with
    | error e => exact hresult
    | ok v =>
      refine ⟨hresult.1, ?_⟩
      cases v with
      | items list => exact ⟨hresult.2.1, hstable⟩
      | flag | text => trivial
  · exact passes_content (by simp [hkind, hitems]) n c

namespace Form

/-- All outputs that are wanted are settled. -/
def Steady (f : Form) : Prop :=
  ∀ q ∈ f.logic.rules.outputsAt f.tree q.node, f.start.isSuppressed q = false →
    f.start.Settled f.logic.outcome q

/-- Whether no pass has reported a cycle since all outputs were computed the last time, that pass
included. `steady` tells it for the form before the requests. -/
def steadyAfter (f : Form) (steady : Bool) : List Request → Bool
  | [] => steady
  | r :: rs =>
    let now := match (r.action.run f).1 with
      | .error _ => steady
      | .ok _ => (r.isFull || steady) && (f.perform r).cycles.isEmpty
    (f.perform r).steadyAfter now rs

/-- What the definitions of a form have when all of them declare what is calculated. -/
def Declared (book : RuleBook) (d : Definition) : Prop := d.Shaped ∧ d.Declares book

variable {P : Definition → Prop} {f g : Form} {r : Request}

theorem Ready.covers (h : f.Ready P) :
    f.start.Within f.logic.rules (f.tree.contains ·) (f.logic.rules.Covers f.tree) :=
  h.within.imp (fun _ hx => hx) (fun _ _ => trivial) fun _ hq _ => hq

/-- A pass over all outputs starts with none that would have to be settled. -/
theorem consistent_marked (h : f.marked.Ready P) :
    f.marked.start.Consistent f.logic.rules f.logic.outcome f.tree where
  frame := .refl f.tree
  coherent := h.sound.toCoherent
  within := h.covers
  settled := by
    intro q hq hdirty
    refine absurd (Schedule.mem_mark.mpr (.inr ?_)) hdirty
    exact (RuleBook.mem_outputs h.sound.connected).mpr hq

/-- A write to a node that is not calculated leaves all outputs settled, except those marked. -/
theorem consistent_write {id : NodeId} {content : Node → Content}
    (htraces : f.tree.Traces f.logic.outcome) (h : f.Ready P)
    (hP : ∀ d, P d → Declared f.logic.rules d) (hsteady : f.Steady) (hfits : Content.Fits content)
    (hstable : ∀ n : Node, ({ n with content := content n } : Node).revising = content n)
    (hfree : f.tree.isReadonly id = false) :
    (f.wrote id (f.tree.rewrite id content)).start.Consistent f.logic.rules f.logic.outcome
      f.tree := by
  have hcoherent : f.start.tree.Coherent := h.sound.toCoherent
  have hwrites : Pass.Writes f.logic.rules f.start
      (f.wrote id (f.tree.rewrite id content)).start := Pass.writes_wrote hcoherent hfits id
  have hget (x : NodeId) : (f.wrote id (f.tree.rewrite id content)).start.tree.get? x
      = if x = id then (f.tree.get? id).map fun n => { n with content := content n }
        else f.tree.get? x := Pass.get?_wrote f.start id x content
  refine ⟨hwrites.frame, hwrites.coherent, h.covers.of_writes hwrites, ?_⟩
  intro q hq hdirty _ hwanted
  have hwanted : f.start.isSuppressed q = false := by
    rwa [← Pass.isSuppressed_eq hwrites.frame.sameLinks
      (fun x => Pass.hasRelevance_wrote (p := f.start) id x content)]
  rw [RuleBook.outputsAt_eq hwrites.frame] at hq
  obtain ⟨hreads, hreaders, n, hn, hholds⟩ := hsteady q hq hwanted
  have hsame := Pass.evaluate_eq_of_writes htraces (.refl f.tree) hcoherent hwrites hreaders hdirty
  obtain ⟨outputs, hmarks, _⟩ := hwrites.marks
  refine ⟨?_, ?_, ?_⟩
  · rw [hsame, hmarks]
    exact hreads
  · intro x hx hlive
    rw [hsame] at hx
    rw [hwrites.frame.contains_eq] at hlive
    rw [hwrites.readersOf_eq]
    exact hreaders x hx hlive
  · rw [hget, hsame]
    by_cases hid : q.node = id
    · subst hid
      have hn : f.tree.get? q.node = some n := hn
      refine ⟨{ n with content := content n }, by rw [if_pos rfl, hn]; rfl, ?_⟩
      refine Node.passes_stable ?_ (hstable n) _ hholds
      -- a calculated node is read-only, and has not been written to
      intro hkind
      obtain ⟨_, rules, hrules, hmem⟩ := RuleBook.mem_outputsAt.mp hq
      obtain ⟨m, hm, hrange, hbook⟩ := RuleBook.exists_definition_of_rulesAt hrules
      obtain rfl : n = m := Option.some.inj (hn.symm.trans hm)
      obtain ⟨_, hdeclares⟩ := hP _ (h.proper q.node n hn _ (Definition.self_mem_parts _))
      have hcalculated := hdeclares hrange rules hbook (hkind ▸ hmem)
      simp [Tree.isReadonly, Tree.isCalculated, hn, hcalculated] at hfree
    · exact ⟨n, by rw [if_neg hid]; exact hn, hholds⟩

/-- After a pass that reports no cycle, a form is steady. -/
theorem steady_recalculate {t : Tree} (htraces : t.Traces f.logic.outcome)
    (hdivided : f.logic.rules.Divided) (h : f.Ready P)
    (hconsistent : f.start.Consistent f.logic.rules f.logic.outcome t)
    (hcycles : f.recalculate.cycles.isEmpty) : f.recalculate.Steady := by
  have hend : (f.start.run f.logic.rules f.logic.outcome).Consistent f.logic.rules f.logic.outcome
      t := hconsistent.runUpTo htraces hdivided _
  have hdirty : (f.start.run f.logic.rules f.logic.outcome).schedule.dirty = [] :=
    Pass.run_dirty f.logic.outcome h.sound.toCoherent h.ordered
  have hcycles : (f.start.run f.logic.rules f.logic.outcome).cycles = [] :=
    List.isEmpty_iff.mp hcycles
  intro q hq hwanted
  obtain ⟨hreads, hreaders, hholds⟩ := hend.settled q hq (by simp [hdirty])
    (by simp [Pass.hasCycle, hcycles]) hwanted
  exact ⟨hreads, hreaders, hholds⟩

/-- Computing all outputs of a steady form leaves the tree as it is. -/
theorem tree_recompute (h : f.Ready P) (hdirty : f.schedule.dirty = []) (hsteady : f.Steady) :
    f.recompute.tree = f.tree := by
  refine (Pass.runUpTo_of_settled (p := f.marked.start) _ h.limited ?_ ?_).1
  · intro q hq hwanted
    obtain ⟨hreads, hreaders, hholds⟩ := hsteady q hq hwanted
    exact ⟨hreads, hreaders, hholds⟩
  · intro q hq
    rcases Schedule.mem_mark.mp hq with hq | hq
    · rw [hdirty] at hq
      exact absurd hq List.not_mem_nil
    · exact ⟨(RuleBook.mem_outputs h.sound.connected).mp hq, List.not_mem_nil⟩

/-! ## From request to request -/

/-- A form between two requests, which is steady if `steady` says so. -/
structure Resting (P : Definition → Prop) (book : RuleBook) (steady : Bool) (f : Form) : Prop where
  ready : f.Ready P
  rules : f.logic.rules = book
  library : f.logic.library = .builtins
  dirty : f.schedule.dirty = []
  steady : steady → f.Steady

section

variable {book : RuleBook} (hP : ∀ d, P d → Declared book d) (htraceable : book.Traceable)
  (hdivided : book.Divided)

include htraceable hdivided

/-- A form is at rest after the pass over a change, if the form before it was or the change marks all
outputs. -/
theorem resting_recalculate {steady : Bool} (hready : g.Ready P)
    (hrules : g.logic.rules = book) (hlibrary : g.logic.library = .builtins)
    (hconsistent : steady → ∃ t : Tree, t.WellFormed ∧
      g.start.Consistent g.logic.rules g.logic.outcome t) :
    g.recalculate.Resting P book (steady && g.recalculate.cycles.isEmpty) where
  ready := hready.recalculate.1
  rules := hrules
  library := hlibrary
  dirty := hready.recalculate.2
  steady := by
    intro hboth
    obtain ⟨hsteady, hcycles⟩ := Bool.and_eq_true_iff.mp hboth
    obtain ⟨t, hw, hconsistent⟩ := hconsistent hsteady
    have htraces : t.Traces g.logic.outcome := Logic.traces hlibrary (hrules ▸ htraceable) hw
    exact steady_recalculate htraces (hrules ▸ hdivided) hready hconsistent hcycles

include hP

omit hdivided in
/-- The pass after a change starts with no output that would have to be settled, if the form before it
was at rest or the change marks all outputs. -/
theorem Resting.consistent {steady : Bool} (h : f.Resting P book steady)
    (hoffers : r.Offers P) (hbegins : Begins f r g) (hsteady : r.isFull || steady) :
    ∃ t : Tree, t.WellFormed ∧ g.start.Consistent g.logic.rules g.logic.outcome t := by
  obtain ⟨hready, _⟩ := h.ready.begins hoffers hbegins
  have hw : f.tree.WellFormed := h.ready.wellFormed fun d hd => (hP d hd).1
  have hw' : g.tree.WellFormed := hready.wellFormed fun d hd => (hP d hd).1
  cases hbegins with
  | write hpartial hfits hstable hfree =>
    have hsteady := h.steady (by simpa [hpartial] using hsteady)
    have htraces : f.tree.Traces f.logic.outcome :=
      Logic.traces h.library (h.rules ▸ htraceable) hw
    have hdeclared : ∀ d, P d → Declared f.logic.rules d := h.rules ▸ hP
    exact ⟨f.tree, hw, consistent_write htraces h.ready hdeclared hsteady hfits hstable hfree⟩
  | insert | remove | recompute => exact ⟨_, hw', consistent_marked hready⟩

theorem Resting.perform {steady : Bool} (h : f.Resting P book steady)
    (hoffers : r.Offers P) : (f.perform r).Resting P book
      (match (r.action.run f).1 with
        | .error _ => steady
        | .ok _ => (r.isFull || steady) && (f.perform r).cycles.isEmpty) := by
  rw [perform_eq, run_action]
  cases hbegun : f.begun r with
  | error e => exact h
  | ok g =>
    have hbegins := begins_of_begun hbegun
    obtain ⟨hready, hlogic⟩ := h.ready.begins hoffers hbegins
    exact resting_recalculate htraceable hdivided hready (hlogic ▸ h.rules) (hlogic ▸ h.library)
      fun hsteady => h.consistent hP htraceable hoffers hbegins hsteady

theorem Resting.performAll {steady : Bool} (h : f.Resting P book steady) {rs : List Request}
    (hoffers : ∀ r ∈ rs, r.Offers P) :
    (f.performAll rs).Resting P book (f.steadyAfter steady rs) := by
  induction rs generalizing f steady with
  | nil => exact h
  | cons r rs ih =>
    have hfirst := h.perform hP htraceable hdivided (hoffers r List.mem_cons_self)
    exact ih hfirst fun q hq => hoffers q (List.mem_cons_of_mem r hq)

theorem resting_load {d : Definition} {config : Config} {now : Moment} (hroot : d.type = .root)
    (hparts : ∀ e ∈ d.parts, P e) (hload : load d config now = .ok f) (hbook : f.logic.rules = book) :
    f.Resting P book f.cycles.isEmpty := by
  obtain ⟨rules, _, rfl⟩ := exists_of_load hload
  have hready := (ready_opened config now rules hroot hparts).marked
  have hw := hready.wellFormed fun d hd => (hP d hd).1
  have hrest : (opened d config now rules).marked.recalculate.Resting P book
      (true && (opened d config now rules).marked.recalculate.cycles.isEmpty) :=
    resting_recalculate htraceable hdivided hready hbook rfl
      fun _ => ⟨_, hw, consistent_marked hready⟩
  exact hrest

end

end Form

/-! ## A form that repeats its input -/

def Description.echo : Description where
  name := "f"
  children := [{ name := "a" }, { name := "b", bind := { calculate := some "/f/a" } }]

def Definition.echo : Definition :=
  .root ⟨"/f", "f", {}, none, none⟩ [
    .value ⟨"/f/a", "a", {}, none, none⟩ "",
    .value ⟨"/f/b", "b", { calculate := some "/f/a" }, none, none⟩ ""]

/-- The expression `/f/a`. -/
def Expr.input : Expr := .path .root [⟨.child, .name "f", []⟩, ⟨.child, .name "a", []⟩]

def RuleBook.echo : RuleBook :=
  [("/f/b", { expressions := [(.calculate, .input)] }), ("/f/a", {}), ("/f", {})]

set_option maxRecDepth 20000 in
theorem Description.toDefinition_echo : Description.echo.toDefinition = .ok .echo := by rfl

set_option maxRecDepth 20000 in
theorem RuleBook.ofDefinition_echo : RuleBook.ofDefinition .echo = .ok .echo := by rfl

theorem RuleBook.plain_echo : RuleBook.echo.Plain := RuleBook.forall_get? (by decide)

theorem RuleBook.divided_echo : RuleBook.echo.Divided := RuleBook.forall_get? (by decide)

/-- The form right after it has been loaded. -/
def Form.echo : Form := (Form.opened .echo {} .epoch .echo).marked.recalculate

theorem Form.load_echo : Form.load .echo = .ok Form.echo :=
  load_of_ofDefinition RuleBook.ofDefinition_echo {} .epoch

/-- What is entered twice, with a recomputation between. -/
def Request.twice : List Request :=
  [.setValue ⟨1, 0⟩ "x", .recompute, .setValue ⟨1, 0⟩ "y"]

def Description.shared : Description where
  name := "f"
  children := [{
    name := "r"
    kind := some .range
    children := [{ name := "x", bind := { calculate := some "'a'" } }]
    instances := [{ children := [{ name := "x" }] }] }]

def Definition.shared : Definition :=
  .root ⟨"/f", "f", {}, none, none⟩ [
    .range ⟨"/f/r", "r", {}, none, none⟩
      (.inst ⟨"/f/r", "r", {}, none, none⟩ [
        .value ⟨"/f/r/x", "x", { calculate := some "'a'" }, none, none⟩ ""])
      [.inst ⟨"/f/r", "r", {}, none, none⟩ [.value ⟨"/f/r/x", "x", {}, none, none⟩ ""]]]

def RuleBook.shared : RuleBook :=
  [("/f/r/x", { expressions := [(.calculate, .text "a")] }), ("/f/r", {}), ("/f", {})]

set_option maxRecDepth 20000 in
theorem Description.toDefinition_shared : Description.shared.toDefinition = .ok .shared := by rfl

set_option maxRecDepth 20000 in
theorem RuleBook.ofDefinition_shared : RuleBook.ofDefinition .shared = .ok .shared := by rfl

theorem RuleBook.plain_shared : RuleBook.shared.Plain := RuleBook.forall_get? (by decide)

def Form.shared : Form := (Form.opened .shared {} .epoch .shared).marked.recalculate

theorem Form.load_shared : Form.load .shared = .ok Form.shared :=
  load_of_ofDefinition RuleBook.ofDefinition_shared {} .epoch

end ReactiveForm
