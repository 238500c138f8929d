import ReactiveForm.Proofs.Form.Requests
import ReactiveForm.Proofs.Schedule.Termination

/-!
# Forms from pass to pass

A form that has been loaded is in order, and stays so through all requests: its tree is sound, the
definitions of its nodes have what the definitions had from which it started, only outputs of its
nodes are scheduled, and no output is marked between two requests.
-/

set_option autoImplicit false

namespace ReactiveForm

/-- All parts of a template that a request brings along have the property. -/
def Request.Offers (P : Definition → Prop) : Request → Prop
  | addInstancesFrom _ _ _ template => ∀ e ∈ template.parts, P e
  | _ => True

namespace Form

/-- The pass that follows a change of the form, at its start. -/
def start (f : Form) : Pass := { tree := f.tree, schedule := f.schedule }

/-- The form before its first pass. -/
def opened (definition : Definition) (config : Config) (now : Moment) (rules : RuleBook) : Form :=
  { definition
    config
    logic := { rules, library := .builtins, bindings := config.bindings, now }
    tree := .ofDefinition definition
    schedule := .ofLimit config.maxEvaluations
    cache := .ofCapacity config.cacheCapacity }

/-- The form after requests, some of which may have been refused. -/
def performAll (f : Form) (rs : List Request) : Form := rs.foldl perform f

/-- The rules declare the output, and its node is live. -/
def Declares (f : Form) (q : Output) : Prop := q ∈ f.logic.rules.outputsAt f.tree q.node

/-- What holds of a form whenever a pass starts or ends. Where only shaped definitions have the
property, the types of the nodes are in order as well. -/
structure Ready (P : Definition → Prop) (f : Form) : Prop where
  sound : f.tree.Sound (∀ d, P d → d.Shaped)
  proper : f.tree.Throughout P
  within : f.start.Within f.logic.rules (fun _ => True) f.Declares
  keeps : f.start.Keeps f.Declares
  ordered : Ascends compare f.schedule.dirty
  limit : f.schedule.limit = max f.config.maxEvaluations 1

variable {P : Definition → Prop} {f g : Form} {r : Request}

theorem exists_of_load {definition : Definition} {config : Config} {now : Moment}
    (h : load definition config now = .ok f) : ∃ rules,
      RuleBook.ofDefinition definition = .ok rules ∧
        f = (opened definition config now rules).marked.recalculate := by
  unfold load at h
  obtain ⟨rules, hrules, h⟩ := ok_of_bind h
  exact ⟨rules, hrules, (Except.ok.inj h).symm⟩

theorem load_of_ofDefinition {d : Definition} {rules : RuleBook}
    (h : RuleBook.ofDefinition d = .ok rules) (config : Config) (now : Moment) :
    load d config now = .ok (opened d config now rules).marked.recalculate := by
  unfold load
  rw [h]
  rfl

theorem Ready.limited (h : f.Ready P) : 0 < f.schedule.limit := by
  rw [h.limit]
  omega

theorem Ready.wellFormed (h : f.Ready P) (hP : ∀ d, P d → d.Shaped) : f.tree.WellFormed :=
  h.sound.wellFormed hP

theorem ready_opened {definition : Definition} (config : Config) (now : Moment) (rules : RuleBook)
    (hroot : definition.type = .root) (hproper : ∀ e ∈ definition.parts, P e) :
    (opened definition config now rules).Ready P where
  sound := Tree.sound_ofDefinition fun hP =>
    ⟨hP definition (hproper definition definition.self_mem_parts), hroot⟩
  proper := Tree.throughout_ofDefinition hproper
  within :=
    { live := fun _ _ => trivial
      dirty := fun _ hq => nomatch hq
      readers := fun _ _ _ ⟨_, hmem, _⟩ => nomatch hmem
      outputs := fun _ hq => hq }
  keeps := ⟨nofun, nofun⟩
  ordered := List.Pairwise.nil
  limit := rfl

theorem Ready.marked (h : f.Ready P) : f.marked.Ready P where
  sound := h.sound
  proper := h.proper
  within :=
    { live := h.within.live
      dirty := by
        intro q hq
        rcases Schedule.mem_mark.mp hq with hq | hq
        · exact h.within.dirty q hq
        · exact (RuleBook.mem_outputs h.sound.connected).mp hq
      readers := h.within.readers
      outputs := h.within.outputs }
  keeps := ⟨nofun, h.keeps.reads⟩
  ordered := Schedule.ascends_mark h.ordered _
  limit := h.limit

/-- A template has what the range or the request has it from. -/
theorem Ready.template (h : f.Ready P) (hoffers : r.Offers P) {range : NodeId}
    {template : Definition} (htemplate : f.tree.template? range = some template ∨
      template.type = .inst ∧ ∃ after count, r = .addInstancesFrom range after count template) :
    ((∀ d, P d → d.Shaped) → template.type = .inst ∧ template.Shaped) ∧
      ∀ e ∈ template.parts, P e := by
  rcases htemplate with hown | ⟨htype, after, count, rfl⟩
  · obtain ⟨_, header, instances, hrange, hparts⟩ := h.proper.template hown
    refine ⟨fun hP => ⟨(hP _ hrange).1, ?_⟩, hparts⟩
    exact hP template (hparts template template.self_mem_parts)
  · exact ⟨fun hP => ⟨htype, hP template (hoffers template template.self_mem_parts)⟩, hoffers⟩

theorem Ready.write (h : f.Ready P) {id : NodeId} {content : Node → Content}
    (hfits : Content.Fits content) : (f.wrote id (f.tree.rewrite id content)).Ready P := by
  have hwrites : Pass.Writes f.logic.rules f.start
      (f.wrote id (f.tree.rewrite id content)).start := Pass.writes_wrote h.sound.toCoherent hfits id
  -- what is declared depends on the frame, which a write leaves alone
  have hdeclares (q : Output) (hq : f.Declares q) :
      (f.wrote id (f.tree.rewrite id content)).Declares q := by
    have hsame : f.logic.rules.outputsAt (f.wrote id (f.tree.rewrite id content)).tree q.node
        = f.logic.rules.outputsAt f.tree q.node := RuleBook.outputsAt_eq hwrites.frame q.node
    have hq : q ∈ f.logic.rules.outputsAt f.tree q.node := hq
    rwa [← hsame] at hq
  obtain ⟨outputs, hmarks, _⟩ := hwrites.marks
  have hschedule : (f.wrote id (f.tree.rewrite id content)).schedule = f.schedule.mark outputs :=
    hmarks
  exact
    { sound := h.sound.of_sameFrame hwrites.frame hwrites.coherent
        (h.sound.arena.of_sameSlots hwrites.slots)
      proper := h.proper.of_sameFrame hwrites.frame
      within := (h.within.of_writes hwrites).mono hdeclares
      keeps := (h.keeps.of_writes hwrites).mono hdeclares
      ordered := by
        rw [hschedule]
        exact Schedule.ascends_mark h.ordered outputs
      limit := by
        rw [hschedule]
        exact h.limit }

theorem Ready.insert (h : f.Ready P) {range : NodeId} {template : Definition}
    (hrange : f.tree.isRange range)
    (hshaped : (∀ d, P d → d.Shaped) → template.type = .inst ∧ template.Shaped)
    (hproper : ∀ e ∈ template.parts, P e) (place count : Nat) :
    ({ f with tree := f.tree.insertInstances range place count template } : Form).Ready P := by
  -- what was declared before belongs to nodes that stay
  have hdeclares (q : Output) (hq : f.Declares q) :
      Declares { f with tree := f.tree.insertInstances range place count template } q := by
    obtain ⟨n, hn⟩ := RuleBook.exists_get?_of_mem hq
    have hkept := Tree.definition?_insertInstances h.sound.arena hn range place count template
    refine Eq.subst (motive := (q ∈ ·)) ?_ hq
    exact (RuleBook.outputsAt_of_definition? hkept).symm
  exact
    { sound := h.sound.insertInstances hrange hshaped place count
      proper := h.proper.insertInstances h.sound.arena hproper range place count
      within :=
        { live := fun _ _ => trivial
          dirty := fun q hq => hdeclares q (h.within.dirty q hq)
          readers := fun x q hx hq => hdeclares q (h.within.readers x q hx hq)
          outputs := fun _ hq => hq }
      keeps := ⟨nofun, fun q nodes hq => hdeclares q (h.keeps.reads q nodes hq)⟩
      ordered := h.ordered
      limit := h.limit }

theorem Ready.remove (h : f.Ready P) (range : NodeId) (place count : Nat) :
    ({ f with
        tree := (f.tree.removeInstances range place count).2
        schedule := f.schedule.forget (f.tree.removeInstances range place count).1 } :
      Form).Ready P := by
  -- only the outputs of the removed nodes are no longer declared, and the schedule forgets these
  have hdeclares (q : Output) (hkept : q.node ∉ (f.tree.removeInstances range place count).1)
      (hq : f.Declares q) : q ∈ f.logic.rules.outputsAt (f.tree.removeInstances range place count).2
        q.node := by
    rw [RuleBook.outputsAt_of_definition? (Tree.definition?_removeInstances hkept)]
    exact hq
  exact
    { sound := h.sound.removeInstances range place count
      proper := h.proper.removeInstances range place count
      within :=
        { live := fun _ _ => trivial
          dirty := by
            intro q hq
            obtain ⟨hq, hkept⟩ := Schedule.mem_forget.mp hq
            exact hdeclares q hkept (h.within.dirty q hq)
          readers := by
            intro x q hx hq
            obtain ⟨hkept, hq⟩ := Schedule.enters_forget hq
            exact hdeclares q hkept (h.within.readers x q hx hq)
          outputs := fun _ hq => hq }
      keeps := by
        refine ⟨nofun, fun q nodes hq => ?_⟩
        obtain ⟨hkept, hq⟩ := Schedule.get?_reads_forget hq
        exact hdeclares q hkept (h.keeps.reads q nodes hq)
      ordered := Schedule.ascends_forget h.ordered _
      limit := h.limit }

theorem Ready.begins (h : f.Ready P) (hoffers : r.Offers P) (hbegins : Begins f r g) :
    g.Ready P ∧ g.logic = f.logic := by
  cases hbegins with
  | write _ hfits _ _ => exact ⟨h.write hfits, rfl⟩
  | insert place count _ hrange htemplate =>
    obtain ⟨hshaped, hproper⟩ := h.template hoffers htemplate
    exact ⟨(h.insert hrange hshaped hproper place count).marked, rfl⟩
  | remove range place count => exact ⟨(h.remove range place count).marked, rfl⟩
  | recompute => exact ⟨h.marked, rfl⟩

/-- A pass keeps a form in order and leaves no output marked. -/
theorem Ready.recalculate (h : f.Ready P) :
    f.recalculate.Ready P ∧ f.recalculate.schedule.dirty = [] := by
  have hcoherent : f.start.tree.Coherent := h.sound.toCoherent
  have hrun : f.start.Follows (f.start.run f.logic.rules f.logic.outcome) :=
    Pass.follows_runUpTo f.logic.outcome _ hcoherent
  have hdirty : (f.start.run f.logic.rules f.logic.outcome).schedule.dirty = [] :=
    Pass.run_dirty f.logic.outcome hcoherent h.ordered
  obtain ⟨hwithin, hkeeps⟩ := Pass.within_runUpTo f.logic.outcome
    (f.start.budget f.logic.rules) hcoherent h.within h.keeps
  have hdeclares (q : Output) (hq : f.Declares q) : f.recalculate.Declares q := by
    have hsame : f.logic.rules.outputsAt f.recalculate.tree q.node
        = f.logic.rules.outputsAt f.tree q.node := RuleBook.outputsAt_eq hrun.frame q.node
    have hq : q ∈ f.logic.rules.outputsAt f.tree q.node := hq
    rwa [← hsame] at hq
  have hafter : f.recalculate.Ready P :=
    { sound := h.sound.of_sameFrame hrun.frame hrun.coherent (h.sound.arena.of_sameSlots hrun.slots)
      proper := h.proper.of_sameFrame hrun.frame
      within :=
        { live := fun _ _ => trivial
          dirty := fun q hq => hdeclares q (hwithin.dirty q hq)
          readers := fun x q hx hq => hdeclares q (hwithin.readers x q hx hq)
          outputs := fun _ hq => hq }
      keeps := ⟨nofun, fun q nodes hq => hdeclares q (hkeeps.reads q nodes hq)⟩
      ordered := by
        have hordered : Ascends compare (f.start.run f.logic.rules f.logic.outcome).schedule.dirty := by
          rw [hdirty]
          exact List.Pairwise.nil
        exact hordered
      limit := hrun.limit.trans h.limit }
  exact ⟨hafter, hdirty⟩

/-! ## Forms without ranges -/

theorem sameFrame_recalculate (hc : g.tree.Coherent) :
    g.tree.SameFrame g.recalculate.tree ∧ g.recalculate.tree.Coherent := by
  have hcoherent : g.start.tree.Coherent := hc
  have hrun : g.start.Follows (g.start.run g.logic.rules g.logic.outcome) :=
    Pass.follows_runUpTo g.logic.outcome _ hcoherent
  exact ⟨hrun.frame, hrun.coherent⟩

theorem sameFrame_load {d : Definition} {config : Config} {now : Moment}
    (h : load d config now = .ok f) :
    (Tree.ofDefinition d).SameFrame f.tree ∧ f.tree.Coherent := by
  obtain ⟨rules, _, rfl⟩ := exists_of_load h
  have hsound : (Tree.ofDefinition d).Sound False := Tree.sound_ofDefinition nofun
  have hcoherent : (opened d config now rules).marked.tree.Coherent := hsound.toCoherent
  exact sameFrame_recalculate hcoherent

theorem isRange_load {d : Definition} {config : Config} {now : Moment}
    (h : load d config now = .ok f) (hranges : ∀ e ∈ d.parts, e.type ≠ .range) (id : NodeId) :
    f.tree.isRange id = false := by
  rw [(sameFrame_load h).1.isRange_eq]
  exact Tree.isRange_ofDefinition hranges id

theorem Begins.sameFrame (h : Begins f r g) (hc : f.tree.Coherent)
    (hranges : ∀ id, f.tree.isRange id = false) : f.tree.SameFrame g.tree ∧ g.tree.Coherent := by
  cases h with
  | write _ hfits => exact hc.rewrite hfits _
  | insert _ _ _ hrange => exact nomatch hrange.symm.trans (hranges _)
  | remove range _ _ _ hrange => exact nomatch hrange.symm.trans (hranges range)
  | recompute => exact ⟨.refl f.tree, hc⟩

theorem sameFrame_performAll (hc : f.tree.Coherent) (hranges : ∀ id, f.tree.isRange id = false)
    (rs : List Request) : f.tree.SameFrame (f.performAll rs).tree := by
  induction rs generalizing f with
  | nil => exact .refl f.tree
  | cons r rs ih =>
    have hperform : f.performAll (r :: rs) = (f.perform r).performAll rs := rfl
    rw [hperform, perform_eq]
    cases hbegun : f.begun r with
    | error e => exact ih hc hranges
    | ok g =>
      obtain ⟨hbegins, hg⟩ := (begins_of_begun hbegun).sameFrame hc hranges
      obtain ⟨hpass, hafter⟩ := sameFrame_recalculate hg
      have hframe := hbegins.trans hpass
      exact hframe.trans (ih hafter fun id => (hframe.isRange_eq id).trans (hranges id))

end Form

end ReactiveForm
