import ReactiveForm.Proofs.Form.Passes
import ReactiveForm.Proofs.Schedule.Budget

/-!
# Reachable forms

A form is loaded, and then operated on in any order: by requests, by the registration of functions,
and by questions, which change nothing but the expressions kept. Every operation that is not refused
makes one change and one pass, and every pass keeps to its budget.
-/

set_option autoImplicit false

namespace ReactiveForm

/-- All that can be done to a form, apart from reading off its state. -/
inductive Operation where
  | request (r : Request)
  | register (name : String) (parameterTags : List String) (resultTag : String)
      (body : Body ViewNode)
  | evaluate (text : String)
  | resolve (text : String)

def Operation.Offers (P : Definition → Prop) : Operation → Prop
  | request r => r.Offers P
  | _ => True

namespace Form

variable {P : Definition → Prop} {f g : Form} {op : Operation}

/-- The form after an operation, which may have been refused. -/
def carryOut (f : Form) : Operation → Form
  | .request r => f.perform r
  | .register name parameterTags resultTag body =>
    ((register name parameterTags resultTag body).run f).2
  | .evaluate text => ((evaluate text).run f).2
  | .resolve text => ((resolve text).run f).2

/-- The form at the start of the pass that an operation makes, if it makes one. -/
def started (f : Form) : Operation → Option Form
  | .request r => (f.begun r).toOption
  | .register name parameterTags resultTag body =>
    match f.logic.library.register name parameterTags resultTag body with
    | .error _ => none
    | .ok library => some (marked { f with logic := { f.logic with library } })
  | .evaluate _ | .resolve _ => none

/-! ## Questions -/

/-- The action changes nothing but the expressions kept. -/
def Peeks {ε α : Type} (m : Action ε α) : Prop :=
  ∀ f : Form, ∃ cache, (m.run f).2 = { f with cache }

section

variable {ε ε' α β : Type}

theorem peeks_pure (a : α) : Peeks (pure a : Action ε α) := fun f => ⟨f.cache, rfl⟩

theorem peeks_throw (e : ε) : Peeks (throw e : Action ε α) := fun f => ⟨f.cache, rfl⟩

theorem peeks_get : Peeks (get : Action ε Form) := fun f => ⟨f.cache, rfl⟩

theorem Peeks.bind {m : Action ε α} {k : α → Action ε β} (hm : Peeks m) (hk : ∀ a, Peeks (k a)) :
    Peeks (m >>= k) := by
  intro f
  obtain ⟨cache, hcache⟩ := hm f
  cases hrun : m.run f with
  | mk result g =>
    rw [hrun] at hcache
    obtain rfl := hcache
    cases result with
    | error e =>
      rw [run_bind_error hrun]
      exact ⟨cache, rfl⟩
    | ok a =>
      rw [run_bind_ok hrun]
      exact hk a _

theorem Peeks.adapt (g : ε → ε') {m : Action ε α} (hm : Peeks m) : Peeks (ExceptT.adapt g m) := hm

end

theorem peeks_evaluate (text : String) : Peeks (evaluate text) := by
  unfold evaluate
  refine peeks_get.bind fun f => ?_
  have hkeep : Peeks (modify fun g => { g with cache := (f.cache.read text).2 } :
    Action EvalError Unit) := fun _ => ⟨_, rfl⟩
  refine hkeep.bind fun _ => ?_
  split
  · exact peeks_throw _
  · refine peeks_get.bind fun g => ?_
    split
    · exact peeks_pure _
    · exact peeks_throw _

theorem peeks_resolve (text : String) : Peeks (resolve text) := by
  unfold resolve
  refine peeks_get.bind fun f => ?_
  split
  · exact peeks_pure _
  · refine ((peeks_evaluate _).adapt _).bind fun value => ?_
    split
    · exact peeks_get.bind fun g => peeks_pure _
    · exact peeks_throw _

/-! ## Operations -/

theorem run_register (f : Form) (name : String) (parameterTags : List String) (resultTag : String)
    (body : Body ViewNode) :
    ((register name parameterTags resultTag body).run f).2
      = match f.logic.library.register name parameterTags resultTag body with
        | .error _ => f
        | .ok library => (marked { f with logic := { f.logic with library } }).recalculate := by
  unfold register
  rw [run_get]
  cases f.logic.library.register name parameterTags resultTag body <;> rfl

/-- An operation makes a pass, or it leaves the form as it is but for the expressions kept. -/
theorem carryOut_cases (f : Form) (op : Operation) :
    (∃ g, f.started op = some g ∧ f.carryOut op = g.recalculate) ∨
      f.started op = none ∧ ∃ cache, f.carryOut op = { f with cache } := by
  cases op with
  | request r =>
    have hperform : f.carryOut (.request r) = f.perform r := rfl
    rw [hperform, perform_eq]
    cases hbegun : f.begun r with
    | error e => exact .inr ⟨by simp [started, hbegun, Except.toOption], f.cache, rfl⟩
    | ok g => exact .inl ⟨g, by simp [started, hbegun, Except.toOption], rfl⟩
  | register name parameterTags resultTag body =>
    have hrun : f.carryOut (.register name parameterTags resultTag body) = _ :=
      f.run_register name parameterTags resultTag body
    rw [hrun]
    cases hlibrary : f.logic.library.register name parameterTags resultTag body with
    | error e => exact .inr ⟨by simp [started, hlibrary], f.cache, rfl⟩
    | ok library => exact .inl ⟨_, by simp [started, hlibrary], rfl⟩
  | evaluate text => exact .inr ⟨rfl, peeks_evaluate text f⟩
  | resolve text => exact .inr ⟨rfl, peeks_resolve text f⟩

theorem begun_of_started {r : Request} (h : f.started (.request r) = some g) :
    f.begun r = .ok g := by
  cases hbegun : f.begun r with
  | error e => simp [started, hbegun, Except.toOption] at h
  | ok g' => simpa [started, hbegun, Except.toOption] using h

theorem register_of_started {name : String} {parameterTags : List String} {resultTag : String}
    {body : Body ViewNode}
    (h : f.started (.register name parameterTags resultTag body) = some g) : ∃ library,
      f.logic.library.register name parameterTags resultTag body = .ok library ∧
        g = marked { f with logic := { f.logic with library } } := by
  unfold started at h
  simp only at h
  split at h
  next => cases h
  next library heq => exact ⟨library, heq, (Option.some.inj h).symm⟩

theorem started_eq_some (h : f.started op = some g) :
    (∃ r, op = .request r ∧ f.begun r = .ok g) ∨
      ∃ library, g = marked { f with logic := { f.logic with library } } := by
  cases op with
  | request r => exact .inl ⟨r, rfl, begun_of_started h⟩
  | register name parameterTags resultTag body =>
    obtain ⟨library, _, hg⟩ := register_of_started h
    exact .inr ⟨library, hg⟩
  | evaluate | resolve => exact nomatch h

/-! ## Reachable forms -/

/-- The forms that can be reached from definitions, and with templates, all parts of which have the
property. -/
inductive Reachable (P : Definition → Prop) : Form → Prop where
  | load {definition : Definition} {config : Config} {now : Moment} {f : Form} :
    definition.type = .root → (∀ e ∈ definition.parts, P e) →
    load definition config now = .ok f → Reachable P f
  | operate {f : Form} (op : Operation) : Reachable P f → op.Offers P → Reachable P (f.carryOut op)

/-- The forms in which the passes of reachable forms start. -/
inductive Starts (P : Definition → Prop) : Form → Prop where
  | load {definition : Definition} {rules : RuleBook} (config : Config) (now : Moment) :
    definition.type = .root → (∀ e ∈ definition.parts, P e) →
    RuleBook.ofDefinition definition = .ok rules →
    Starts P (opened definition config now rules).marked
  | operation {f g : Form} {op : Operation} :
    Reachable P f → op.Offers P → f.started op = some g → Starts P g

theorem Ready.cached (h : f.Ready P) (cache : ExprCache) : ({ f with cache } : Form).Ready P :=
  ⟨h.sound, h.proper, h.within, h.keeps, h.ordered, h.limit⟩

theorem Ready.started (h : f.Ready P) (hoffers : op.Offers P) (hstarted : f.started op = some g) :
    g.Ready P := by
  rcases started_eq_some hstarted with ⟨r, rfl, hbegun⟩ | ⟨library, rfl⟩
  · exact (h.begins hoffers (begins_of_begun hbegun)).1
  · have hlibrary : ({ f with logic := { f.logic with library } } : Form).Ready P :=
      ⟨h.sound, h.proper, h.within, h.keeps, h.ordered, h.limit⟩
    exact hlibrary.marked

/-- Between operations a form is in order, and no output is marked. -/
theorem Reachable.ready (h : f.Reachable P) : f.Ready P ∧ f.schedule.dirty = [] := by
  induction h with
  | load hroot hparts hload =>
    obtain ⟨rules, _, rfl⟩ := exists_of_load hload
    exact (ready_opened _ _ rules hroot hparts).marked.recalculate
  | @operate f op _ hoffers ih =>
    rcases f.carryOut_cases op with ⟨g, hstarted, heq⟩ | ⟨_, cache, heq⟩
    · rw [heq]
      exact (ih.1.started hoffers hstarted).recalculate
    · rw [heq]
      exact ⟨ih.1.cached cache, ih.2⟩

theorem Starts.ready (h : g.Starts P) : g.Ready P := by
  cases h with
  | load config now hroot hparts _ => exact (ready_opened config now _ hroot hparts).marked
  | operation hreachable hoffers hstarted => exact hreachable.ready.1.started hoffers hstarted

/-! ## The budget of a pass -/

/-- Every pass ends with no output marked. It computes declared outputs of live nodes only, each at
most as often as the limit allows, and reports an output at most once, after as many computations. -/
theorem run_within_budget (h : g.Starts fun _ => True) :
    let p := g.start.run g.logic.rules g.logic.outcome
    let limit := max g.config.maxEvaluations 1
    let outputs := g.logic.rules.outputs g.tree
    p.schedule.dirty = [] ∧ (∀ q, p.log.count q ≤ limit) ∧ (∀ q ∈ p.log, q ∈ outputs) ∧
      p.log.length ≤ limit * outputs.toFinset.card ∧ (p.cycles.map (·.output)).Nodup ∧
      ∀ c ∈ p.cycles, c.evaluations = limit := by
  intro p limit outputs
  have hready := h.ready
  have hcoherent : g.start.tree.Coherent := hready.sound.toCoherent
  have hfollows : g.start.Follows p := Pass.follows_runUpTo g.logic.outcome _ hcoherent
  have hlimit : p.schedule.limit = limit := hfollows.limit.trans hready.limit
  -- the log and the reports of a pass keep to the limit at every step
  have hmetered : p.Metered :=
    (Pass.metered_of_start rfl rfl).runUpTo g.logic.outcome _ hcoherent
  have hkeeps : ∀ q ∈ p.log, q ∈ outputs := by
    intro q hq
    have hwithin := Pass.within_runUpTo g.logic.outcome (g.start.budget g.logic.rules) hcoherent
      hready.within hready.keeps
    exact (RuleBook.mem_outputs hcoherent.connected).mpr (hwithin.2.log q hq)
  have hdirty : p.schedule.dirty = [] :=
    Pass.run_dirty g.logic.outcome hcoherent hready.ordered
  have hcomputed := hmetered.computed
  have hlength := hmetered.length_log_le hkeeps
  have hreported := hmetered.reported
  rw [hlimit] at hcomputed hlength hreported
  exact ⟨hdirty, hcomputed, hkeeps, hlength, hmetered.once, hreported⟩

end Form

/-! ## A form that never settles -/

/-- The content of `a` takes in itself. -/
def Definition.ring : Definition :=
  .root ⟨"/f", "f", {}, none, none⟩ [
    .value ⟨"/f/a", "a", { calculate := some "/f" }, none, none⟩ "",
    .value ⟨"/f/b", "b", {}, none, none⟩ "x"]

def RuleBook.ring : RuleBook :=
  [("/f/b", {}), ("/f/a", { expressions := [(.calculate, .path .root [⟨.child, .name "f", []⟩])] }),
    ("/f", {})]

set_option maxRecDepth 20000 in
theorem RuleBook.ofDefinition_ring : RuleBook.ofDefinition .ring = .ok .ring := by rfl

namespace Form

/-- The form before its first pass. -/
def ring : Form := (opened .ring { maxEvaluations := 3 } .epoch .ring).marked

theorem run_within_budget_ring :
    let p := ring.start.run ring.logic.rules ring.logic.outcome
    p.cycles = [⟨⟨⟨1, 0⟩, .bind .calculate⟩, "/f/a", 3⟩] ∧
      p.schedule.dirty = [] ∧ (∀ q, p.log.count q ≤ 3) ∧
      (∀ q ∈ p.log, q ∈ ring.logic.rules.outputs ring.tree) ∧
      p.log.length ≤ 3 * (ring.logic.rules.outputs ring.tree).toFinset.card ∧
      (p.cycles.map (·.output)).Nodup ∧ ∀ c ∈ p.cycles, c.evaluations = 3 := by
  have hcycles : (ring.start.run ring.logic.rules ring.logic.outcome).cycles
      = [⟨⟨⟨1, 0⟩, .bind .calculate⟩, "/f/a", 3⟩] := by decide +kernel
  have hstarts : ring.Starts fun _ => True :=
    .load _ _ rfl (fun _ _ => trivial) RuleBook.ofDefinition_ring
  exact ⟨hcycles, run_within_budget hstarts⟩

end Form

end ReactiveForm
