import Mathlib.Algebra.Order.BigOperators.Group.Finset
import ReactiveForm.Proofs.Schedule.Settled

/-!
# Passes over ranked calculations

A calculation that reads no other one is computed once in a pass. A calculation that reads others is
marked again when one of these has been computed, and not more often: every computation of it but the
first one is paid for by a computation of an output that it reads. So if each calculation ranks above
all those together that it can read, none is computed more often than its rank says, and no cycle is
reported where the ranks stay within the limit.
-/

set_option autoImplicit false

namespace ReactiveForm

/-- Nothing but contents is computed. -/
def RuleBook.Calculates (book : RuleBook) : Prop :=
  ∀ reference rules, Table.get? book reference = some rules →
    ∀ kind ∈ rules.kinds, kind = .bind .calculate

namespace RuleBook.Calculates

variable {book : RuleBook} (h : book.Calculates)

include h

theorem divided : book.Divided := by
  intro reference rules hrules _ hitemset
  exact nomatch h reference rules hrules _ hitemset

theorem kind_eq {t : Tree} {q : Output} {id : NodeId} (hq : q ∈ book.outputsAt t id) :
    q.kind = .bind .calculate := by
  obtain ⟨_, rules, hrules, hkind⟩ := mem_outputsAt.mp hq
  obtain ⟨n, _, _, hget⟩ := exists_definition_of_rulesAt hrules
  exact h _ rules hget _ hkind

end RuleBook.Calculates

namespace Pass

variable {book : RuleBook} {evaluate : Tree → Output → Outcome} {S : Tree → Prop} {t : Tree}
  {p : Pass} {o q : Output} {limit : Nat} {rank : Output → Nat}

/-! ## The computation of a content -/

theorem relevant_setStatus (h : p.tree.Relevant) {g : Status → Status}
    (hg : ∀ s, (g s).relevant = s.relevant) (id : NodeId) :
    (p.setStatus id g).tree.Relevant := by
  intro x n hn
  rw [get?_setStatus] at hn
  split at hn
  next =>
    obtain ⟨m, hm, rfl⟩ := Option.map_eq_some_iff.mp hn
    exact (hg m.status).trans (h id m hm)
  next => exact h x n hn

theorem relevant_wrote (h : p.tree.Relevant) (id : NodeId) (content : Node → Content) :
    (p.wrote id (p.tree.rewrite id content)).tree.Relevant := by
  intro x n hn
  rw [get?_wrote] at hn
  split at hn
  next =>
    obtain ⟨m, hm, rfl⟩ := Option.map_eq_some_iff.mp hn
    exact h id m hm
  next => exact h x n hn

theorem isSuppressed_of_relevant (h : p.tree.Relevant) (hc : p.tree.Coherent)
    (hlive : ∃ n, p.tree.get? q.node = some n) : p.isSuppressed q = false := by
  rw [isSuppressed_eq_false_iff]
  intro z hz
  obtain ⟨n, hn⟩ := hc.connected.live_of_mem_ancestors (gates_subset q p.tree hz) hlive
  simpa [Tree.hasRelevance, hn] using h z n hn

theorem mem_dirty_wrote {id : NodeId} {write : Bool × Tree}
    (hq : q ∈ (p.wrote id write).schedule.dirty) :
    q ∈ p.schedule.dirty ∨ ∃ z ∈ id :: write.2.ancestors id, q ∈ p.schedule.readersOf z := by
  obtain ⟨changed, tree⟩ := write
  cases changed with
  | false => exact .inl hq
  | true => exact (Schedule.mem_mark.mp hq).imp_right List.mem_flatMap.mp

/-- What comes of a calculation is noted as a failure or written to the node. -/
theorem compute_of_calculate (hkind : o.kind = .bind .calculate) :
    ∃ message, p.compute book evaluate o = (p.noted evaluate o).setFailure o message ∨
      ∃ content, Content.Fits content ∧ p.compute book evaluate o
        = ((p.noted evaluate o).setFailure o message).wrote o.node
          (((p.noted evaluate o).setFailure o message).tree.rewrite o.node content) := by
  rw [compute_eq]
  split
  next value _ =>
    refine ⟨none, ?_⟩
    unfold apply
    rw [hkind]
    cases value with
    | text s =>
      refine .inr ⟨Node.writing s, Node.fits_writing s, ?_⟩
      dsimp only
      rw [Tree.write_eq]
    | flag | items => exact .inl rfl
  next e _ => exact ⟨some e.message, .inl rfl⟩

theorem relevant_compute (h : p.tree.Relevant) (hkind : o.kind = .bind .calculate) :
    (p.compute book evaluate o).tree.Relevant := by
  have hfailure (message : Option String) :
      ((p.noted evaluate o).setFailure o message).tree.Relevant := by
    have hnoted : (p.noted evaluate o).tree.Relevant := h
    refine relevant_setStatus hnoted ?_ o.node
    exact fun _ => rfl
  obtain ⟨message, heq | ⟨content, _, heq⟩⟩ := compute_of_calculate hkind
  · rw [heq]
    exact hfailure message
  · rw [heq]
    exact relevant_wrote (hfailure message) o.node content

theorem mem_dirty_compute (hc : p.tree.Coherent) (hkind : o.kind = .bind .calculate)
    (hq : q ∈ (p.compute book evaluate o).schedule.dirty) :
    q ∈ p.schedule.dirty ∨
      ∃ z ∈ o.node :: p.tree.ancestors o.node, q ∈ (p.noted evaluate o).schedule.readersOf z := by
  obtain ⟨message, heq | ⟨content, hfits, heq⟩⟩ := compute_of_calculate hkind
  · rw [heq] at hq
    exact .inl hq
  · rw [heq] at hq
    have hnoted : (p.noted evaluate o).tree.Coherent := hc
    obtain ⟨hframe, hcoherent⟩ :
        p.tree.SameFrame ((p.noted evaluate o).setFailure o message).tree ∧
          ((p.noted evaluate o).setFailure o message).tree.Coherent :=
      coherent_setStatus hnoted o.node _
    have hwritten := (hcoherent.rewrite hfits o.node).1
    rcases mem_dirty_wrote hq with hq | ⟨z, hz, hq⟩
    · exact .inl hq
    · refine .inr ⟨z, ?_, hq⟩
      rwa [(hframe.trans hwritten).ancestors_eq] at hz

/-! ## Ranks -/

/-- In some tree of `S` with the frame of `t`, an output reads the node of another one, or a node
above that. -/
def Feeds (evaluate : Tree → Output → Outcome) (S : Tree → Prop) (t : Tree) (o q : Output) : Prop :=
  ∃ t', S t' ∧ t.SameFrame t' ∧ ∃ z ∈ (evaluate t' q).reads, o.node ∈ t.subtree z

/-- Each output ranks above all those together that feed it, and no rank exceeds the limit. -/
structure Ranked (book : RuleBook) (evaluate : Tree → Output → Outcome) (S : Tree → Prop) (t : Tree)
    (limit : Nat) (rank : Output → Nat) : Prop where
  le : ∀ q ∈ book.outputsAt t q.node, rank q ≤ limit
  above : ∀ q ∈ book.outputsAt t q.node, ∀ os : List Output, os.Nodup →
    (∀ o ∈ os, o ∈ book.outputsAt t o.node ∧ Feeds evaluate S t o q) → (os.map rank).sum < rank q

/-- How often an output has been computed, a mark counted as one time more. -/
def turns (p : Pass) (q : Output) : Nat :=
  p.log.count q + if q ∈ p.schedule.dirty then 1 else 0

/-- A consistent pass without cycles in which each turn of an output, except the first one, is paid
for by a computation of an output that feeds it. -/
structure Paid (book : RuleBook) (evaluate : Tree → Output → Outcome) (S : Tree → Prop) (t : Tree)
    (p : Pass) : Prop extends p.Consistent book evaluate t where
  relevant : p.tree.Relevant
  backed : p.schedule.Backed
  cycles : p.cycles = []
  paid : ∀ q ∈ book.outputsAt t q.node, ∃ os : List Output, os.Nodup ∧
    (∀ o ∈ os, o ∈ book.outputsAt t o.node ∧ Feeds evaluate S t o q) ∧
    p.turns q ≤ 1 + (os.map fun o => p.log.count o).sum

theorem Paid.turns_le (h : p.Paid book evaluate S t)
    (hranked : Ranked book evaluate S t limit rank) (hq : q ∈ book.outputsAt t q.node) :
    p.turns q ≤ rank q := by
  -- by the rank: outputs that pay for `q` feed it, so they rank below it
  induction hn : rank q using Nat.strong_induction_on generalizing q with
  | _ n ih =>
    subst hn
    obtain ⟨os, hnodup, hos, hle⟩ := h.paid q hq
    have habove := hranked.above q hq os hnodup hos
    have hsum : (os.map fun o => p.log.count o).sum ≤ (os.map rank).sum := by
      refine List.sum_le_sum fun o ho => ?_
      have hlt : rank o < rank q := by
        simpa using hranked.above q hq [o] (List.nodup_singleton o) (by simpa using hos o ho)
      exact Nat.le_trans (Nat.le_add_right _ _) (ih (rank o) hlt (hos o ho).1 rfl)
    omega

theorem sum_count_cons (os : List Output) (log : List Output) (o : Output) :
    (os.map fun x => (o :: log).count x).sum = (os.map fun x => log.count x).sum + os.count o := by
  induction os with
  | nil => rfl
  | cons x os ih =>
    rw [List.map_cons, List.map_cons, List.sum_cons, List.sum_cons, ih, List.count_cons,
      List.count_cons]
    simp only [beq_iff_eq, eq_comm (a := o)]
    omega

/-- An output that is computed may pay once more for the outputs that it feeds. -/
theorem exists_payers {os : List Output} (hnodup : os.Nodup)
    (hos : ∀ x ∈ os, x ∈ book.outputsAt t x.node ∧ Feeds evaluate S t x q)
    (ho : o ∈ book.outputsAt t o.node ∧ Feeds evaluate S t o q) (log : List Output) :
    ∃ os' : List Output, os'.Nodup ∧
      (∀ x ∈ os', x ∈ book.outputsAt t x.node ∧ Feeds evaluate S t x q) ∧
      (os.map fun x => log.count x).sum + 1 ≤ (os'.map fun x => (o :: log).count x).sum := by
  by_cases hmem : o ∈ os
  · refine ⟨os, hnodup, hos, ?_⟩
    rw [sum_count_cons]
    have := List.count_pos_iff.mpr hmem
    omega
  · refine ⟨o :: os, List.nodup_cons.mpr ⟨hmem, hnodup⟩, List.forall_mem_cons.mpr ⟨ho, hos⟩, ?_⟩
    rw [sum_count_cons, List.count_cons_self, List.map_cons, List.sum_cons]
    omega

theorem turns_noted (ho : o ∈ p.schedule.dirty) (q : Output) :
    ((p.unmarked o).noted evaluate o).turns q = p.turns q := by
  have hmem : q ∈ ((p.unmarked o).noted evaluate o).schedule.dirty ↔ q ∈ p.schedule.dirty ∧ q ≠ o :=
    Schedule.mem_unmark
  have hlog : ((p.unmarked o).noted evaluate o).log = o :: p.log := rfl
  unfold turns
  rw [hlog, List.count_cons]
  by_cases hq : q = o
  · -- the mark that is taken away becomes an entry of the log
    subst hq
    rw [if_neg fun hd => (hmem.mp hd).2 rfl, if_pos ho]
    simp
  · simp [hmem, hq, Ne.symm hq]

/-- A reader that is not marked has read what it is entered for as the tree is now. -/
theorem Consistent.reads_noted (h : p.Consistent book evaluate t) (hb : p.schedule.Backed)
    (hrelevant : p.tree.Relevant) (hcycles : p.cycles = []) {z : NodeId}
    (hq : q ∈ book.outputsAt t q.node) (hdirty : q ∉ (p.unmarked o).schedule.dirty)
    (hreads : q ∈ ((p.unmarked o).noted evaluate o).schedule.readersOf z) :
    z ∈ (evaluate p.tree q).reads := by
  rcases Schedule.enters_setReads (Schedule.enters_of_mem_readersOf hreads) with
    ⟨rfl, hz⟩ | ⟨hne, henters⟩
  · exact hz
  -- any other output that is not marked is settled, so its entries are its present reads
  · have hq : q ∈ book.outputsAt p.tree q.node := by rwa [RuleBook.outputsAt_eq h.frame]
    have hwanted : p.isSuppressed q = false :=
      isSuppressed_of_relevant hrelevant h.coherent (RuleBook.exists_get?_of_mem hq)
    have hsettled := h.settled q hq (fun hd => hdirty (Schedule.mem_unmark.mpr ⟨hd, hne⟩))
      (by simp [hasCycle, hcycles]) hwanted
    obtain ⟨nodes, hnodes, hz⟩ := hb z q henters
    obtain rfl := Option.some.inj (hsettled.reads.symm.trans hnodes)
    exact hz

section

variable (h : p.Paid book evaluate S t)

include h

theorem Paid.feeds (hkind : o.kind = .bind .calculate) (hS : S p.tree) (hlive : p.tree.contains o.node)
    (hq : q ∈ book.outputsAt t q.node)
    (hbefore : q ∉ ((p.unmarked o).noted evaluate o).schedule.dirty)
    (hafter : q ∈ ((p.unmarked o).compute book evaluate o).schedule.dirty) :
    Feeds evaluate S t o q := by
  have hcoherent : (p.unmarked o).tree.Coherent := h.coherent
  obtain ⟨z, hz, hreads⟩ := (mem_dirty_compute hcoherent hkind hafter).resolve_left hbefore
  have hup : z ∈ o.node :: p.tree.ancestors o.node := hz
  have habove := h.coherent.connected.live_of_mem_ancestors hup (Arena.contains_iff.mp hlive)
  refine ⟨p.tree, hS, h.frame, z, ?_, ?_⟩
  · exact h.reads_noted h.backed h.relevant h.cycles hq hbefore hreads
  · rw [← h.frame.subtree_eq]
    exact (h.coherent.connected.mem_subtree_iff_mem_ancestors habove).mpr hup

theorem Paid.payers_compute (hkind : o.kind = .bind .calculate) (hS : S p.tree)
    (hlive : p.tree.contains o.node) (ho : o ∈ p.schedule.dirty)
    (hdeclared : o ∈ book.outputsAt t o.node) (hq : q ∈ book.outputsAt t q.node) :
    ∃ os : List Output, os.Nodup ∧
      (∀ o ∈ os, o ∈ book.outputsAt t o.node ∧ Feeds evaluate S t o q) ∧
      ((p.unmarked o).compute book evaluate o).turns q
        ≤ 1 + (os.map fun x => ((p.unmarked o).compute book evaluate o).log.count x).sum := by
  have hcoherent : (p.unmarked o).tree.Coherent := h.coherent
  have hwrites : Writes book ((p.unmarked o).noted evaluate o) _ := writes_compute hcoherent o
  obtain ⟨os, hnodup, hos, hle⟩ := h.paid q hq
  have hsame : ((p.unmarked o).noted evaluate o).turns q = p.turns q := turns_noted ho q
  have hnoted : ((p.unmarked o).noted evaluate o).log = o :: p.log := rfl
  have hlog : ((p.unmarked o).compute book evaluate o).log = o :: p.log := hwrites.log
  have hsum := sum_count_cons os p.log o
  rw [← hsame] at hle
  unfold turns at hle ⊢
  rw [hnoted] at hle
  rw [hlog]
  -- a mark is set anew by nothing but the computation, which pays for it
  by_cases hbefore : q ∈ ((p.unmarked o).noted evaluate o).schedule.dirty
  · rw [if_pos hbefore] at hle
    refine ⟨os, hnodup, hos, ?_⟩
    rw [if_pos (hwrites.mem_dirty hbefore)]
    omega
  · rw [if_neg hbefore] at hle
    by_cases hafter : q ∈ ((p.unmarked o).compute book evaluate o).schedule.dirty
    · obtain ⟨os', hnodup', hos', hpaid⟩ :=
        exists_payers hnodup hos ⟨hdeclared, h.feeds hkind hS hlive hq hbefore hafter⟩ p.log
      refine ⟨os', hnodup', hos', ?_⟩
      rw [if_pos hafter]
      omega
    · refine ⟨os, hnodup, hos, ?_⟩
      rw [if_neg hafter]
      omega

theorem Paid.compute (hbook : book.Calculates) (hS : S p.tree) (hlive : p.tree.contains o.node)
    (ho : o ∈ p.schedule.dirty)
    (hconsistent : ((p.unmarked o).compute book evaluate o).Consistent book evaluate t) :
    ((p.unmarked o).compute book evaluate o).Paid book evaluate S t := by
  have hcoherent : (p.unmarked o).tree.Coherent := h.coherent
  have hdeclared : o ∈ book.outputsAt t o.node :=
    h.within.dirty o ho (by rwa [← h.frame.contains_eq])
  have hkind : o.kind = .bind .calculate := hbook.kind_eq hdeclared
  have hwrites : Writes book ((p.unmarked o).noted evaluate o) _ := writes_compute hcoherent o
  obtain ⟨outputs, hmarks, _⟩ := hwrites.marks
  exact
    { toConsistent := hconsistent
      relevant := relevant_compute (p := p.unmarked o) h.relevant hkind
      backed := by
        rw [hmarks]
        exact h.backed.setReads o _
      cycles := hwrites.cycles.trans h.cycles
      paid := fun q hq => h.payers_compute hkind hS hlive ho hdeclared hq }

variable (htraces : t.Traces evaluate) (hbook : book.Calculates)

include htraces hbook

theorem Paid.step (hranked : Ranked book evaluate S t p.schedule.limit rank) (hS : S p.tree)
    (ho : o ∈ p.schedule.dirty) : (p.step book evaluate o).Paid book evaluate S t := by
  have hconsistent := h.toConsistent.step htraces hbook.divided ho
  rcases p.step_cases o with ⟨heq, _⟩ | ⟨_, hlive, _, hlimit⟩ | ⟨heq, hlive, _⟩
  · -- an output that is skipped loses its mark, and so it owes less
    rw [heq] at hconsistent ⊢
    refine ⟨hconsistent, h.relevant, h.backed, h.cycles, fun q hq => ?_⟩
    obtain ⟨os, hnodup, hos, hle⟩ := h.paid q hq
    refine ⟨os, hnodup, hos, Nat.le_trans (Nat.add_le_add_left ?_ _) hle⟩
    by_cases hd : q ∈ (p.unmarked o).schedule.dirty
    · rw [if_pos hd, if_pos (Schedule.mem_unmark.mp hd).1]
    · rw [if_neg hd]
      exact Nat.zero_le _
  · -- an output that has reached the limit and is marked has more turns than its rank allows
    have hdeclared : o ∈ book.outputsAt t o.node :=
      h.within.dirty o ho (by rwa [← h.frame.contains_eq])
    have hturns := h.turns_le hranked hdeclared
    have hle := hranked.le o hdeclared
    unfold turns at hturns
    rw [if_pos ho] at hturns
    omega
  · rw [heq] at hconsistent ⊢
    exact h.compute hbook hS hlive ho hconsistent

/-- A pass over ranked calculations reports no cycle. -/
theorem Paid.runUpTo (hranked : Ranked book evaluate S t p.schedule.limit rank) (n : Nat)
    (hS : ∀ m, S (Pass.runUpTo book evaluate m p).tree) :
    (Pass.runUpTo book evaluate n p).Paid book evaluate S t := by
  induction n generalizing p with
  | zero => exact h
  | succ n ih =>
    rw [Pass.runUpTo]
    split
    next => exact h
    next o hnext =>
      have hlimit : (p.step book evaluate o).schedule.limit = p.schedule.limit :=
        (follows_step evaluate h.coherent o).limit
      refine ih (h.step htraces hbook hranked (hS 0) (Schedule.next?_mem hnext)) ?_ fun m => ?_
      · rw [hlimit]
        exact hranked
      · have hstep := hS (m + 1)
        rw [Pass.runUpTo, hnext] at hstep
        exact hstep

end

/-- At its start, a pass has nothing to pay for. -/
theorem Consistent.paid (h : p.Consistent book evaluate t) (hrelevant : p.tree.Relevant)
    (hbacked : p.schedule.Backed) (hlog : p.log = []) (hcycles : p.cycles = []) :
    p.Paid book evaluate S t where
  toConsistent := h
  relevant := hrelevant
  backed := hbacked
  cycles := hcycles
  paid := by
    intro q _
    refine ⟨[], List.nodup_nil, nofun, ?_⟩
    unfold turns
    rw [hlog]
    split <;> simp

end Pass

end ReactiveForm
