import ReactiveForm.Proofs.Form.Selection
import ReactiveForm.Proofs.Schedule.Effects

/-!
# What the passes of a form leave alone

A pass keeps the nodes of the form with their definitions and their places. Nothing about a node
changes in a pass that no output of the form accounts for, and an output that always fails keeps its
last result.
-/

set_option autoImplicit false

namespace ReactiveForm

namespace Pass

variable {book : RuleBook} {evaluate : Tree → Output → Outcome} {p : Pass} {q : Output}
  {R : NodeId → Prop} {K : Output → Prop}

/-- What is computed without failure has been marked. -/
theorem Succeeds.declared (h : p.Succeeds book evaluate q) (hc : p.tree.Coherent)
    (hwithin : p.Within book R K) (hkeeps : p.Keeps K) : K q := by
  obtain ⟨k, _, _, hnext, _⟩ := h
  exact (within_runUpTo evaluate k hc hwithin hkeeps).1.dirty q (Schedule.next?_mem hnext)

end Pass

namespace Form

variable {P : Definition → Prop} {g : Form}

/-- A pass touches what belongs to the outputs of the form, and results only where outputs are
computed without failure. -/
theorem Ready.touches_recalculate (h : g.Ready P) :
    g.tree.Touches g.Declares
      (fun q => g.Declares q ∧ g.start.Succeeds g.logic.rules g.logic.outcome q)
      g.recalculate.tree := by
  have hcoherent : g.start.tree.Coherent := h.sound.toCoherent
  have hkeeps := (Pass.within_runUpTo g.logic.outcome (g.start.budget g.logic.rules) hcoherent
    h.within h.keeps).2
  have htouches : g.tree.Touches _ _ g.recalculate.tree :=
    Pass.touches_runUpTo hcoherent (g.start.budget g.logic.rules)
  refine htouches.mono hkeeps.log fun q hq => ?_
  have hsucceeds : g.start.Succeeds g.logic.rules g.logic.outcome q := hq
  exact ⟨hsucceeds.declared hcoherent h.within h.keeps, hsucceeds⟩

/-- A pass leaves the live nodes as they are with their definitions, parents and children. The
content of a node changes only if the node has an output that fills it, or if it or an ancestor has
a relevance of its own; a result and a failure change only if the node has the output. An output
that is never computed without failure keeps its last result. -/
theorem pass_touches_declared (h : g.Starts fun _ => True) :
    let t := g.tree
    let t' := g.recalculate.tree
    (∀ x, t'.contains x = t.contains x ∧ t'.definition? x = t.definition? x ∧
      t'.parent x = t.parent x ∧ t'.children x = t.children x) ∧
    (∀ x, t'.content? x ≠ t.content? x →
      g.Declares ⟨x, .bind .calculate⟩ ∨ g.Declares ⟨x, .itemset⟩ ∨
        ∃ y ∈ x :: t.ancestors x, g.Declares ⟨y, .bind .relevant⟩) ∧
    (∀ q, t'.stored? q ≠ t.stored? q ∨ t'.failure? q ≠ t.failure? q → g.Declares q) ∧
    ∀ q, ¬ g.start.Succeeds g.logic.rules g.logic.outcome q → t'.stored? q = t.stored? q := by
  intro t t'
  have htouches := h.ready.touches_recalculate
  have hdeclared := htouches.mono (fun _ hq => hq) fun _ hq => hq.1
  have hlinks := htouches.frame.sameLinks
  refine ⟨fun x => ⟨htouches.frame.contains_eq x, hlinks.definition?_eq x, hlinks.parent_eq x,
    hlinks.children_eq x⟩, hdeclared.content, ?_, fun q hfails => ?_⟩
  · rintro q (hq | hq)
    · exact hdeclared.stored q hq
    · exact hdeclared.failure q hq
  · by_contra hq
    exact hfails (htouches.stored q hq).2

end Form

/-! ## A form with an output that fails -/

/-- The condition of `a` asks for a variable that has no value. -/
def Definition.fault : Definition :=
  .root ⟨"/f", "f", {}, none, none⟩ [
    .value ⟨"/f/a", "a", { readonly := some "$v", calculate := some "'x'" }, none, none⟩ "",
    .value ⟨"/f/b", "b", {}, none, none⟩ "y"]

def RuleBook.fault : RuleBook :=
  [("/f/b", {}),
    ("/f/a", { expressions := [(.readonly, .variable "v"), (.calculate, .text "x")] }),
    ("/f", {})]

set_option maxRecDepth 20000 in
theorem RuleBook.ofDefinition_fault : RuleBook.ofDefinition .fault = .ok .fault := by rfl

namespace Form

/-- The form before its first pass. -/
def fault : Form := (opened .fault { maxEvaluations := 1 } .epoch .fault).marked

/-- The pass fills `a` and notes the failure, but `a` stays as open as it was, and `b` is left
alone. -/
theorem pass_touches_declared_fault :
    fault.recalculate.tree.content? ⟨1, 0⟩ ≠ fault.tree.content? ⟨1, 0⟩ ∧
      fault.recalculate.tree.failure? ⟨⟨1, 0⟩, .bind .readonly⟩
        ≠ fault.tree.failure? ⟨⟨1, 0⟩, .bind .readonly⟩ ∧
      fault.recalculate.tree.stored? ⟨⟨1, 0⟩, .bind .readonly⟩
        = fault.tree.stored? ⟨⟨1, 0⟩, .bind .readonly⟩ ∧
      fault.recalculate.tree.content? ⟨2, 0⟩ = fault.tree.content? ⟨2, 0⟩ := by
  have hstarts : fault.Starts fun _ => True :=
    .load _ _ rfl (fun _ _ => trivial) RuleBook.ofDefinition_fault
  obtain ⟨_, hcontent, _, hstored⟩ := pass_touches_declared hstarts
  refine ⟨by decide +kernel, by decide +kernel, hstored _ ?_, ?_⟩
  · have hfails : ∀ k < fault.start.budget fault.logic.rules,
        (Pass.runUpTo fault.logic.rules fault.logic.outcome k fault.start).schedule.next?
          = some ⟨⟨1, 0⟩, .bind .readonly⟩ →
        (fault.logic.outcome (Pass.runUpTo fault.logic.rules fault.logic.outcome k fault.start).tree
          ⟨⟨1, 0⟩, .bind .readonly⟩).result.isOk = false := by decide +kernel
    rintro ⟨k, hk, v, hnext, _, hresult⟩
    have hnot := hfails k hk hnext
    rw [hresult] at hnot
    cases hnot
  · -- `b` has no output that fills it, and nothing above it has a relevance of its own
    by_contra hchanged
    have hnone : ¬ (fault.Declares ⟨⟨2, 0⟩, .bind .calculate⟩ ∨
        fault.Declares ⟨⟨2, 0⟩, .itemset⟩ ∨
        ∃ y ∈ (⟨2, 0⟩ : NodeId) :: fault.tree.ancestors ⟨2, 0⟩,
          fault.Declares ⟨y, .bind .relevant⟩) := by
      unfold Declares
      decide +kernel
    exact hnone (hcontent _ hchanged)

end Form

end ReactiveForm
