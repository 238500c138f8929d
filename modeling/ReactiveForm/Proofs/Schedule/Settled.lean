import ReactiveForm.Proofs.Schedule.Termination

/-!
# Settled outputs

An output is settled when its outcome is what is stored for it already. Every step of a pass keeps
this so for all outputs that are neither marked, nor unwanted, nor reported as a cycle: the outcome
of an output changes only with the contents that it has read, and whoever has read a content is
marked when the content changes.
-/

set_option autoImplicit false

namespace ReactiveForm

/-- The outcome of an output depends on the frame of the tree, and on the contents of those leaves
only that it reports as read. -/
def Tree.Traces (t : Tree) (evaluate : Tree → Output → Outcome) : Prop :=
  ∀ (t₁ t₂ : Tree) (o : Output), t.SameFrame t₁ → t₁.SameFrame t₂ →
    (∀ x ∈ (evaluate t₁ o).reads, t₁.AgreeBelow t₂ (.element x)) → evaluate t₂ o = evaluate t₁ o

/-- The rules declare the output unless its node is gone. -/
def RuleBook.Covers (book : RuleBook) (t : Tree) (q : Output) : Prop :=
  t.contains q.node → q ∈ book.outputsAt t q.node

theorem RuleBook.covers_eq {book : RuleBook} {t t' : Tree} {q : Output} (h : t.SameFrame t') :
    book.Covers t' q ↔ book.Covers t q := by
  unfold Covers
  rw [h.contains_eq, outputsAt_eq h]

namespace Pass

variable {book : RuleBook} {evaluate : Tree → Output → Outcome} {t : Tree} {p p' : Pass}
  {o q : Output}

/-- What is stored for an output is its outcome, the nodes read included. -/
structure Settled (evaluate : Tree → Output → Outcome) (p : Pass) (q : Output) : Prop where
  reads : p.schedule.reads.get? q = some (evaluate p.tree q).reads
  readers : ∀ x ∈ (evaluate p.tree q).reads, p.tree.contains x → q ∈ p.schedule.readersOf x
  holds : ∃ n, p.tree.get? q.node = some n ∧ n.Holds q.kind (evaluate p.tree q).result

/-- All outputs are settled but those that are marked, unwanted or reported, in a pass over a tree
with the frame of `t`. -/
structure Consistent (book : RuleBook) (evaluate : Tree → Output → Outcome) (t : Tree) (p : Pass) :
    Prop where
  frame : t.SameFrame p.tree
  coherent : p.tree.Coherent
  within : p.Within book (t.contains ·) (book.Covers t)
  settled : ∀ q ∈ book.outputsAt p.tree q.node, q ∉ p.schedule.dirty → p.hasCycle q = false →
    p.isSuppressed q = false → p.Settled evaluate q

theorem Consistent.rebase (h : p.Consistent book evaluate t) :
    p.Consistent book evaluate p.tree where
  frame := .refl p.tree
  coherent := h.coherent
  within := by
    refine h.within.imp (fun _ hx => hx) (fun x hx => ?_) fun q hq => ?_
    · rwa [← h.frame.contains_eq]
    · exact (RuleBook.covers_eq h.frame).mpr hq
  settled := h.settled

section

variable (htraces : t.Traces evaluate) (hframe : t.SameFrame p.tree) (hc : p.tree.Coherent)

include htraces hframe hc

/-- What has been read is as it was, unless the reader is marked. -/
theorem evaluate_eq_of_writes (h : Writes book p p')
    (hreaders : ∀ x ∈ (evaluate p.tree q).reads, p.tree.contains x → q ∈ p.schedule.readersOf x)
    (hq : q ∉ p'.schedule.dirty) : evaluate p'.tree q = evaluate p.tree q := by
  refine htraces _ _ q hframe h.frame ?_
  intro x hx y hy hl
  by_contra hchanged
  have habove := hc.connected.mem_ancestors_of_mem_subtree hy
  have hlive : p.tree.contains x := by
    refine Arena.contains_iff.mpr (hc.connected.live_of_mem_ancestors habove ?_)
    obtain ⟨n, hn, _⟩ := Tree.isLeaf_iff.mp hl
    exact ⟨n, hn⟩
  exact hq (h.readers y hchanged x habove q (hreaders x hx hlive))

variable (hbook : book.Divided) (ho : o ∈ book.outputsAt p.tree o.node)
  (hwanted : p.isSuppressed o = false)

include hbook ho hwanted

/-- An output that has been computed is settled, unless what it has read has changed by that. -/
theorem settled_compute (hdirty : o ∉ (p.compute book evaluate o).schedule.dirty) :
    (p.compute book evaluate o).Settled evaluate o := by
  have hstored : Stored book o (p.noted evaluate o) (p.compute book evaluate o) :=
    stored_compute hbook hc ho hwanted
  obtain ⟨n, hn⟩ := RuleBook.exists_get?_of_mem ho
  obtain ⟨n', hn', hholds⟩ := holds_compute hn
  have hself : ∀ x ∈ (evaluate p.tree o).reads, o ∈ (p.noted evaluate o).schedule.readersOf x :=
    fun x hx => Schedule.self_mem_readersOf_setReads hx
  -- nothing that it has read was written by its own result, or it would be marked again
  have hsame : evaluate (p.compute book evaluate o).tree o = evaluate p.tree o :=
    evaluate_eq_of_writes (p := p.noted evaluate o) htraces hframe hc hstored.toWrites
      (fun x hx _ => hself x hx) hdirty
  obtain ⟨outputs, heq, _⟩ := hstored.marks
  exact
    { reads := by
        rw [hsame, heq, Schedule.reads_mark]
        exact (Schedule.get?_reads_setReads _).trans (if_pos rfl)
      readers := by
        intro x hx _
        rw [hsame] at hx
        rw [hstored.readersOf_eq]
        exact hself x hx
      holds := ⟨n', hn', by rwa [hsame]⟩ }

/-- An output that was settled stays so when another one is computed, unless it is marked. -/
theorem settled_compute_other (hne : q ≠ o) (hq : q ∈ book.outputsAt p.tree q.node)
    (hdirty : q ∉ (p.compute book evaluate o).schedule.dirty)
    (hwanted' : (p.compute book evaluate o).isSuppressed q = false)
    (h : p.isSuppressed q = false → p.Settled evaluate q) :
    (p.compute book evaluate o).Settled evaluate q := by
  have hstored : Stored book o (p.noted evaluate o) (p.compute book evaluate o) :=
    stored_compute hbook hc ho hwanted
  obtain ⟨hbefore, hpasses⟩ := hstored.others q hne hq hdirty hwanted'
  have hsettled := h hbefore
  have hreaders : ∀ x ∈ (evaluate p.tree q).reads, p.tree.contains x →
      q ∈ (p.noted evaluate o).schedule.readersOf x :=
    fun x hx hlive => Schedule.mem_readersOf_setReads (hsettled.readers x hx hlive) hne
  have hsame : evaluate (p.compute book evaluate o).tree q = evaluate p.tree q :=
    evaluate_eq_of_writes (p := p.noted evaluate o) htraces hframe hc hstored.toWrites hreaders
      hdirty
  obtain ⟨outputs, heq, _⟩ := hstored.marks
  obtain ⟨n, hn, hholds⟩ := hsettled.holds
  obtain ⟨n', hn', hpass⟩ := hpasses n hn
  exact
    { reads := by
        rw [hsame, heq, Schedule.reads_mark, ← hsettled.reads]
        exact (Schedule.get?_reads_setReads _).trans (if_neg (Ne.symm hne))
      readers := by
        intro x hx hlive
        rw [hsame] at hx
        rw [hstored.frame.contains_eq] at hlive
        rw [hstored.readersOf_eq]
        exact hreaders x hx hlive
      holds := ⟨n', hn', by rw [hsame]; exact hpass _ hholds⟩ }

end

theorem Consistent.step (htraces : t.Traces evaluate) (hbook : book.Divided)
    (h : p.Consistent book evaluate t) (ho : o ∈ p.schedule.dirty) :
    (p.step book evaluate o).Consistent book evaluate t := by
  have hfollows : p.Follows (p.step book evaluate o) := follows_step evaluate h.coherent o
  refine ⟨h.frame.trans hfollows.frame, hfollows.coherent, h.within.step evaluate h.coherent ho, ?_⟩
  intro q hq hdirty hcycle hwanted
  rw [RuleBook.outputsAt_eq hfollows.frame] at hq
  -- taking the mark off `o` unsettles no other output
  have hunmarked : q ≠ o → q ∉ (p.unmarked o).schedule.dirty → p.hasCycle q = false →
      p.isSuppressed q = false → (p.unmarked o).Settled evaluate q := by
    intro hne hdirty hcycle hwanted
    obtain ⟨hreads, hreaders, hholds⟩ := h.settled q hq
      (fun hd => hdirty (Schedule.mem_unmark.mpr ⟨hd, hne⟩)) hcycle hwanted
    exact ⟨hreads, hreaders, hholds⟩
  -- a step skips the output, reports it, or computes it
  rcases p.step_cases o with ⟨heq, hskip⟩ | ⟨heq, _⟩ | ⟨heq, hlive, _, howanted, _⟩
  · rw [heq] at hdirty hcycle hwanted ⊢
    refine hunmarked ?_ hdirty hcycle hwanted
    rintro rfl
    obtain ⟨n, hn⟩ := RuleBook.exists_get?_of_mem hq
    have hlive : p.tree.contains q.node := Arena.contains_iff.mpr ⟨n, hn⟩
    rcases hskip with hdead | hreported | hunwanted
    · exact nomatch hlive.symm.trans hdead
    · exact nomatch hreported.symm.trans hcycle
    · exact nomatch hunwanted.symm.trans hwanted
  · rw [heq] at hdirty hcycle hwanted ⊢
    have hboth : p.hasCycle q = false ∧ o ≠ q := by
      simpa [hasCycle, reportCycle, unmarked] using hcycle
    obtain ⟨hreads, hreaders, hholds⟩ := hunmarked hboth.2.symm hdirty hboth.1 hwanted
    exact ⟨hreads, hreaders, hholds⟩
  · rw [heq] at hdirty hcycle hwanted ⊢
    have hcoherent : (p.unmarked o).tree.Coherent := h.coherent
    have ho : o ∈ book.outputsAt (p.unmarked o).tree o.node := by
      have hlisted : o ∈ book.outputsAt t o.node :=
        h.within.dirty o ho (by rwa [← h.frame.contains_eq])
      rwa [← RuleBook.outputsAt_eq h.frame] at hlisted
    have hstored : Stored book o ((p.unmarked o).noted evaluate o) _ :=
      stored_compute hbook hcoherent ho howanted
    by_cases hne : q = o
    · subst hne
      exact settled_compute htraces h.frame hcoherent hbook ho howanted hdirty
    · refine settled_compute_other htraces h.frame hcoherent hbook ho howanted hne hq hdirty hwanted ?_
      refine hunmarked hne (fun hd => hdirty (hstored.mem_dirty hd)) ?_
      unfold hasCycle at hcycle
      rwa [hstored.cycles] at hcycle

theorem Consistent.runUpTo (htraces : t.Traces evaluate) (hbook : book.Divided)
    (h : p.Consistent book evaluate t) (n : Nat) :
    (Pass.runUpTo book evaluate n p).Consistent book evaluate t := by
  induction n generalizing p with
  | zero => exact h
  | succ n ih =>
    rw [Pass.runUpTo]
    split
    · exact h
    next o hnext => exact ih (h.step htraces hbook (Schedule.next?_mem hnext))

end Pass

end ReactiveForm
