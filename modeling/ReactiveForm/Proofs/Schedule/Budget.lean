import Mathlib.Algebra.Order.BigOperators.Group.Finset
import ReactiveForm.Proofs.Schedule.Termination

/-!
# What a pass may spend

A step computes an output only as long as the limit is not reached, and reports it once when it is.
As only declared outputs are computed, their number bounds all computations of a pass.
-/

set_option autoImplicit false

namespace ReactiveForm

namespace Pass

variable {book : RuleBook} {evaluate : Tree → Output → Outcome} {p : Pass} {o q : Output}

/-- No output has been computed more often than the limit allows, and what has been reported is
reported once and with the limit. -/
structure Metered (p : Pass) : Prop where
  computed : ∀ q, p.log.count q ≤ p.schedule.limit
  reported : ∀ c ∈ p.cycles, c.evaluations = p.schedule.limit
  once : (p.cycles.map (·.output)).Nodup

theorem metered_of_start (hlog : p.log = []) (hcycles : p.cycles = []) : p.Metered where
  computed q := by simp [hlog]
  reported := by simp [hcycles]
  once := by simp [hcycles]

theorem Metered.reportCycle (h : p.Metered) (hcycle : p.hasCycle o = false)
    (hlimit : p.schedule.limit ≤ p.log.count o) : (p.reportCycle o).Metered where
  computed := h.computed
  reported := by
    intro c hc
    rcases List.mem_append.mp hc with hc | hc
    · exact h.reported c hc
    · obtain rfl := List.mem_singleton.mp hc
      exact Nat.le_antisymm (h.computed o) hlimit
  once := by
    have hnew : o ∉ p.cycles.map (·.output) := by
      simpa [hasCycle] using hcycle
    have hmap : (p.reportCycle o).cycles.map (·.output) = p.cycles.map (·.output) ++ [o] := by
      simp [Pass.reportCycle]
    rw [hmap]
    exact List.nodup_append'.mpr ⟨h.once, List.nodup_singleton o, by simpa using hnew⟩

theorem Metered.compute (h : p.Metered) (hc : p.tree.Coherent)
    (hlimit : p.log.count o < p.schedule.limit) : (p.compute book evaluate o).Metered := by
  have hwrites : Writes book (p.noted evaluate o) (p.compute book evaluate o) := writes_compute hc o
  have hlog : (p.compute book evaluate o).log = o :: p.log := hwrites.log
  have hcycles : (p.compute book evaluate o).cycles = p.cycles := hwrites.cycles
  have hsame : (p.compute book evaluate o).schedule.limit = p.schedule.limit :=
    (follows_compute evaluate hc o).limit
  refine ⟨fun q => ?_, ?_, ?_⟩
  · rw [hlog, hsame]
    by_cases hq : q = o
    · rw [hq, List.count_cons_self]
      exact hlimit
    · rw [List.count_cons_of_ne (Ne.symm hq)]
      exact h.computed q
  · rw [hcycles, hsame]
    exact h.reported
  · rw [hcycles]
    exact h.once

theorem Metered.step (evaluate : Tree → Output → Outcome) (h : p.Metered) (hc : p.tree.Coherent)
    (o : Output) : (p.step book evaluate o).Metered := by
  have hunmarked : (p.unmarked o).Metered := ⟨h.computed, h.reported, h.once⟩
  rcases p.step_cases o with ⟨heq, _⟩ | ⟨heq, _, hcycle, hlimit⟩ | ⟨heq, _, _, _, hlimit⟩
  · rw [heq]
    exact hunmarked
  · rw [heq]
    exact hunmarked.reportCycle hcycle hlimit
  · rw [heq]
    exact hunmarked.compute hc hlimit

theorem Metered.runUpTo (evaluate : Tree → Output → Outcome) (n : Nat) (h : p.Metered)
    (hc : p.tree.Coherent) : (Pass.runUpTo book evaluate n p).Metered := by
  induction n generalizing p with
  | zero => exact h
  | succ n ih =>
    rw [Pass.runUpTo]
    split
    next => exact h
    next o _ =>
      have hfollows : p.Follows (p.step book evaluate o) := follows_step evaluate hc o
      exact ih (h.step evaluate hc o) hfollows.coherent

/-- All computations together are bounded by the number of outputs that may be computed. -/
theorem Metered.length_log_le (h : p.Metered) {outputs : List Output}
    (hkeeps : ∀ q ∈ p.log, q ∈ outputs) :
    p.log.length ≤ p.schedule.limit * outputs.toFinset.card := by
  have hsub : p.log.toFinset ⊆ outputs.toFinset := by
    intro q hq
    exact List.mem_toFinset.mpr (hkeeps q (List.mem_toFinset.mp hq))
  calc p.log.length = ∑ q ∈ p.log.toFinset, p.log.count q :=
        (List.sum_toFinset_count_eq_length p.log).symm
    _ ≤ p.log.toFinset.card • p.schedule.limit :=
        Finset.sum_le_card_nsmul _ _ _ fun q _ => h.computed q
    _ ≤ outputs.toFinset.card • p.schedule.limit :=
        Nat.mul_le_mul_right _ (Finset.card_le_card hsub)
    _ = p.schedule.limit * outputs.toFinset.card := Nat.mul_comm _ _

end Pass

end ReactiveForm
