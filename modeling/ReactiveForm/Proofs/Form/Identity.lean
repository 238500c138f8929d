import ReactiveForm.Proofs.Definition.Build
import ReactiveForm.Proofs.Form.Reachable
import ReactiveForm.Proofs.Tree.Identity

/-!
# Identifiers of a form

In every form that can be reached, the live nodes are those below the root, each in one place, and
the other slots are free. An identifier whose node has been removed is refused ever after, even
when its slot is in use again.
-/

set_option autoImplicit false

namespace ReactiveForm

/-- A part of a definition that has been made from a description. -/
def Definition.Built (e : Definition) : Prop :=
  ∃ (description : Description) (d : Definition), description.toDefinition = .ok d ∧ e ∈ d.parts

theorem Definition.Built.shaped {e : Definition} (h : e.Built) : e.Shaped := by
  obtain ⟨description, d, hbuild, he⟩ := h
  exact (Description.shaped_toDefinition hbuild).1.part d he

/-- The node that a request is about. -/
def Request.node? : Request → Option NodeId
  | setValue id _ | select id _ | deselect id _ => some id
  | addInstances range _ _ | addInstancesFrom range _ _ _ | removeInstances range _ _ => some range
  | recompute => none

namespace Form

variable {P : Definition → Prop} {f g : Form} {r : Request} {op : Operation} {id : NodeId}

/-! ## What becomes of identifiers -/

theorem Begins.ages (h : Begins f r g) : f.tree.arena.Ages g.tree.arena := by
  cases h with
  | write => exact .of_sameSlots (Tree.sameSlots_rewrite _ _ _)
  | insert => exact f.tree.ages_insertInstances _ _ _ _
  | remove => exact f.tree.ages_removeInstances _ _ _
  | recompute => exact .refl _

theorem Ready.ages_recalculate (h : f.Ready P) : f.tree.arena.Ages f.recalculate.tree.arena := by
  have hcoherent : f.start.tree.Coherent := h.sound.toCoherent
  have hfollows : f.start.Follows (f.start.run f.logic.rules f.logic.outcome) :=
    Pass.follows_runUpTo f.logic.outcome _ hcoherent
  exact .of_sameSlots hfollows.slots

theorem Ready.ages_carryOut (h : f.Ready P) (hoffers : op.Offers P) :
    f.tree.arena.Ages (f.carryOut op).tree.arena := by
  rcases f.carryOut_cases op with ⟨g, hstarted, heq⟩ | ⟨_, cache, heq⟩
  · rw [heq]
    refine Arena.Ages.trans ?_ (h.started hoffers hstarted).ages_recalculate
    rcases started_eq_some hstarted with ⟨r, _, hbegun⟩ | ⟨library, rfl⟩
    · exact (begins_of_begun hbegun).ages
    · exact .refl _
  · rw [heq]
    exact .refl _

/-- The form becomes the other one by operations. -/
inductive Leads (P : Definition → Prop) (f : Form) : Form → Prop where
  | refl : Leads P f f
  | operate {g : Form} (op : Operation) : Leads P f g → op.Offers P → Leads P f (g.carryOut op)

theorem Leads.reachable (h : f.Leads P g) (hf : f.Reachable P) : g.Reachable P := by
  induction h with
  | refl => exact hf
  | operate op _ hoffers ih => exact ih.operate op hoffers

theorem Leads.ages (h : f.Leads P g) (hf : f.Reachable P) : f.tree.arena.Ages g.tree.arena := by
  induction h with
  | refl => exact .refl _
  | operate op hleads hoffers ih =>
    exact ih.trans ((hleads.reachable hf).ready.1.ages_carryOut hoffers)

/-! ## What is refused -/

/-- The identifier stands for nothing, wherever the form is asked about it. -/
structure Rejects (f : Form) (id : NodeId) : Prop where
  contains : f.contains id = false
  snapshot : f.snapshot? id = none
  value : f.value? id = none
  instances : f.instances id = []
  children : f.children id = []
  parent : f.parent id = none
  reads : ∀ kind, f.dependencies? ⟨id, kind⟩ = none
  text : ∀ x ∈ [ViewNode.element id, .text id], f.viewText x = ""
  view : f.viewReference (.element id) = ""
  reference : (referenceOf id).run f = (.error (.unknownNode id), f)
  request : ∀ r : Request, r.node? = some id → r.action.run f = (.error (.unknownNode id), f)

theorem begun_eq_error (hdead : f.contains id = false) (hr : r.node? = some id) :
    f.begun r = .error (.unknownNode id) := by
  have hcheck : f.checkLive id = .error (.unknownNode id) := by
    have hdead : f.tree.contains id = false := hdead
    simp [checkLive, hdead]
  cases r with
  | setValue | select | deselect | addInstances | addInstancesFrom | removeInstances =>
    obtain rfl := Option.some.inj hr
    simp only [begun, entered, chosen, checkChoice, hcheck]
    rfl
  | recompute => exact nomatch hr

theorem snapshot_of_dead (hdead : f.tree.get? id = none) : f.snapshot? id = none := by
  change Snapshot.upTo f.tree f.tree.arena.size id = none
  cases f.tree.arena.size <;> simp [Snapshot.upTo, hdead]

theorem Ready.rejects (h : f.Ready P) (hdead : f.contains id = false) : f.Rejects id := by
  have hnone : f.tree.get? id = none := by
    cases hn : f.tree.get? id with
    | none => rfl
    | some n =>
      have hlive : f.contains id := Arena.contains_iff.mpr ⟨n, hn⟩
      cases hlive.symm.trans hdead
  exact
    { contains := hdead
      snapshot := snapshot_of_dead hnone
      value := Tree.value?_of_dead hnone
      instances := by
        have hrange : f.tree.isRange id = false := by simp [Tree.isRange, hnone]
        simp [instances, hrange]
      children := Tree.children_of_dead hnone
      parent := Tree.parent_of_dead hnone
      reads := by
        intro kind
        cases hreads : f.dependencies? ⟨id, kind⟩ with
        | none => rfl
        | some nodes =>
          obtain ⟨n, hn⟩ := RuleBook.exists_get?_of_mem (h.keeps.reads ⟨id, kind⟩ nodes hreads)
          cases hn.symm.trans hnone
      text := by
        have htext : f.tree.text id = "" := Tree.text_of_dead hnone
        simpa [viewText, Tree.target] using htext
      view := Tree.reference_of_dead hnone
      reference := by
        have hrun := f.run_referenceOf id
        have hdead : f.tree.contains id = false := hdead
        rwa [checkLive, hdead] at hrun
      request := by
        intro r hr
        rw [run_action, begun_eq_error hdead hr]
        rfl }

/-- An identifier that has lost its node is refused ever after. -/
theorem Leads.rejects {f₁ f₂ : Form} (hf : f.Reachable P) (hlive : f.contains id)
    (h₁ : f.Leads P f₁) (hgone : f₁.contains id = false) (h₂ : f₁.Leads P f₂) : f₂.Rejects id := by
  have hreachable := h₁.reachable hf
  have hspent : f₁.tree.arena.Spent id := by
    rcases (h₁.ages hf).contains_or_spent hlive with hkept | hspent
    · exact nomatch hkept.symm.trans hgone
    · exact hspent
  have hready := (h₂.reachable hreachable).ready.1
  exact hready.rejects (hspent.ages (h₂.ages hreachable)).not_contains

/-- In every form that can be reached, the live nodes are those below the root, each once; the links
agree; the free list names the empty slots, each once; ranges hold instances only and leaves hold
nothing; and what has been removed is refused ever after. -/
theorem Reachable.identifiers (h : f.Reachable Definition.Built) :
    (f.tree.nodes.Nodup ∧ ∀ id, f.contains id ↔ id ∈ f.tree.nodes) ∧
    (∀ p c, c ∈ f.children p → f.contains c ∧ f.parent c = some p) ∧
    (f.tree.arena.free.Nodup ∧ ∀ i, i ∈ f.tree.arena.free ↔
      ∃ slot, f.tree.arena.slots[i]? = some slot ∧ slot.content = none) ∧
    (∀ p c, f.tree.isRange p → c ∈ f.children p →
      ∃ n, f.tree.get? c = some n ∧ n.definition.type = .inst) ∧
    (∀ p, f.tree.isLeaf p → f.children p = []) ∧
    ∀ id f₁ f₂, f.contains id → f.Leads Definition.Built f₁ → f₁.contains id = false →
      f₁.Leads Definition.Built f₂ → f₂.Rejects id := by
  have hready := h.ready.1
  have hw : f.tree.WellFormed := hready.wellFormed fun _ hd => hd.shaped
  have hc := hw.connected
  obtain ⟨n, hroot, _⟩ := hc.root_live
  refine ⟨⟨hc.nodup_subtree hw.distinct ⟨n, hroot⟩, ?_⟩, ?_, ⟨hready.sound.arena.nodup, ?_⟩, ?_,
    fun p => hw.children_of_isLeaf, fun id f₁ f₂ hlive h₁ hgone h₂ => h₁.rejects h hlive hgone h₂⟩
  · exact fun id => Arena.contains_iff.trans hc.mem_nodes_iff.symm
  · intro p c hmem
    have hparent : f.tree.parent c = some p := hw.linked.mp hmem
    obtain ⟨m, hm, _⟩ := Tree.get?_of_parent hparent
    exact ⟨Arena.contains_iff.mpr ⟨m, hm⟩, hparent⟩
  · intro i
    -- the generation of an empty slot does not matter
    refine (hready.sound.arena.mem_free i).trans ⟨fun ⟨g, hslot⟩ => ⟨_, hslot, rfl⟩, ?_⟩
    rintro ⟨⟨generation, content⟩, hslot, rfl⟩
    exact ⟨generation, hslot⟩
  · intro p c hrange hmem
    have hparent : f.tree.parent c = some p := hw.linked.mp hmem
    obtain ⟨m, hm, _⟩ := Tree.get?_of_parent hparent
    exact ⟨m, hm, (hw.isRange_parent_iff hm hparent).mp hrange⟩

end Form

/-! ## A slot that is used again -/

def Description.roll : Description where
  name := "f"
  children := [{ name := "r", kind := some .range, children := [{ name := "x" }] }]

def Definition.roll : Definition :=
  .root ⟨"/f", "f", {}, none, none⟩ [
    .range ⟨"/f/r", "r", {}, none, none⟩
      (.inst ⟨"/f/r", "r", {}, none, none⟩ [.value ⟨"/f/r/x", "x", {}, none, none⟩ ""]) []]

def RuleBook.roll : RuleBook := [("/f/r/x", {}), ("/f/r", {}), ("/f", {})]

set_option maxRecDepth 20000 in
theorem Description.toDefinition_roll : Description.roll.toDefinition = .ok .roll := by rfl

set_option maxRecDepth 20000 in
theorem RuleBook.ofDefinition_roll : RuleBook.ofDefinition .roll = .ok .roll := by rfl

namespace Form

/-- The form right after it has been loaded; its range is empty. -/
def roll : Form := (opened .roll {} .epoch .roll).marked.recalculate

theorem load_roll : load .roll = .ok roll := load_of_ofDefinition RuleBook.ofDefinition_roll {} .epoch

/-- The form with an instance, without it, and with another one. -/
def rollFull : Form := roll.carryOut (.request (.addInstances ⟨1, 0⟩ none 1))

def rollEmpty : Form := rollFull.carryOut (.request (.removeInstances ⟨1, 0⟩ 0 1))

def rollRefilled : Form := rollEmpty.carryOut (.request (.addInstances ⟨1, 0⟩ none 1))

theorem identifiers_roll : rollFull.contains ⟨2, 0⟩ ∧ rollEmpty.contains ⟨2, 0⟩ = false ∧
    rollRefilled.contains ⟨2, 1⟩ ∧ rollRefilled.Rejects ⟨2, 0⟩ := by
  have hfull : rollFull.contains ⟨2, 0⟩ := by decide +kernel
  have hempty : rollEmpty.contains ⟨2, 0⟩ = false := by decide +kernel
  have hrefilled : rollRefilled.contains ⟨2, 1⟩ := by decide +kernel
  have hload : roll.Reachable Definition.Built :=
    .load rfl (fun e he => ⟨_, _, Description.toDefinition_roll, he⟩) load_roll
  have hreachable : rollFull.Reachable Definition.Built := hload.operate _ trivial
  have hrejects := hreachable.identifiers.2.2.2.2.2 ⟨2, 0⟩ rollEmpty rollRefilled hfull
    (.operate _ .refl trivial) hempty (.operate _ .refl trivial)
  exact ⟨hfull, hempty, hrefilled, hrejects⟩

end Form

end ReactiveForm
