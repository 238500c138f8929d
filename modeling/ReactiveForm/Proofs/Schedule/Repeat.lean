import ReactiveForm.Proofs.Schedule.Settled

/-!
# Passes over settled outputs

Computing a settled output again stores what is there already and marks nothing. So a pass in which
all outputs are settled computes every marked output once and leaves the tree as it is.
-/

set_option autoImplicit false

namespace ReactiveForm

theorem Arena.modify_eq_self {α : Type} {a : Arena α} {id : NodeId} {f : α → α}
    (h : ∀ c, a.get? id = some c → f c = c) : a.modify id f = a := by
  unfold modify
  split
  next hlive =>
    obtain ⟨slots, free⟩ := a
    have hslots : (slots.modify id.index fun s => { s with content := s.content.map f }) = slots := by
      refine List.ext_getElem? fun i => ?_
      rw [List.getElem?_modify]
      by_cases hi : id.index = i
      · subst hi
        obtain ⟨c, hc⟩ := Option.isSome_iff_exists.mp hlive
        have hfc := h c hc
        unfold get? at hc
        simp only at hc
        cases hs : slots[id.index]? with
        | none => simp
        | some slot =>
          obtain ⟨generation, content⟩ := slot
          simp only [hs] at hc
          split at hc
          · obtain rfl := hc
            simp [hfc]
          · exact nomatch hc
      · simp [hi]
    simp only [hslots]
  next => rfl

theorem Failures.set_get_self (f : Failures) (kind : OutputKind) : f.set kind (f.get kind) = f := by
  rcases kind with (_ | _ | _ | _ | _) | _ <;> rfl

namespace Pass

variable {book : RuleBook} {evaluate : Tree → Output → Outcome} {p : Pass} {o q : Output}

theorem setStatus_eq_self {id : NodeId} {n : Node} (hn : p.tree.get? id = some n)
    {g : Status → Status} (hg : g n.status = n.status) : p.setStatus id g = p := by
  have hmodify : p.tree.modify id (fun n => { n with status := g n.status }) = p.tree := by
    unfold Tree.modify
    rw [Arena.modify_eq_self]
    intro m hm
    obtain rfl : n = m := Option.some.inj (hn.symm.trans hm)
    rw [hg]
  unfold setStatus
  rw [hmodify]

theorem wrote_eq_self {id : NodeId} {n : Node} (hn : p.tree.get? id = some n)
    {f : Node → Content} (hf : f n = n.content) : p.wrote id (p.tree.rewrite id f) = p := by
  have hunchanged : (p.tree.rewrite id f).1 = false := by
    refine Tree.rewrite_unchanged_iff.mpr ?_
    intro m hm
    obtain rfl : n = m := Option.some.inj (hn.symm.trans hm)
    exact hf
  simp only [wrote, hunchanged, Tree.rewrite_of_unchanged hunchanged]
  rfl

theorem apply_eq_self {n : Node} (hn : p.tree.get? o.node = some n) {v : OutputValue}
    (hv : n.Stores o.kind v) : p.apply book o v = p := by
  obtain ⟨id, kind⟩ := o
  cases kind.lands v with
  | relevant b =>
    obtain rfl : n.status.relevant = b := hv
    have hflag : p.flagged id n.status.relevant = p := setStatus_eq_self hn rfl
    change p.setRelevant book ⟨id, .bind .relevant⟩ n.status.relevant = p
    rw [setRelevant_eq, hflag]
    split
    next hbefore hafter => exact nomatch hbefore.symm.trans hafter
    next hbefore hafter => exact nomatch hbefore.symm.trans hafter
    next => rfl
  | readonly b =>
    obtain rfl : n.status.readonly = b := hv
    exact setStatus_eq_self (g := fun s => { s with readonly := n.status.readonly }) hn rfl
  | required b =>
    obtain rfl : n.status.required = b := hv
    exact setStatus_eq_self (g := fun s => { s with required := n.status.required }) hn rfl
  | constraint b =>
    obtain rfl : n.status.satisfied = b := hv
    exact setStatus_eq_self (g := fun s => { s with satisfied := n.status.satisfied }) hn rfl
  | calculate s =>
    change p.wrote id (p.tree.write id s) = p
    rw [Tree.write_eq]
    exact wrote_eq_self hn hv
  | itemset list =>
    obtain ⟨hitems, hrevising⟩ := hv
    have hstatus : (p.setStatus id fun s => { s with items := list }) = p :=
      setStatus_eq_self hn (by rw [← hitems])
    change (p.setStatus id fun s => { s with items := list }).wrote id
      ((p.setStatus id fun s => { s with items := list }).tree.reviseSelection id) = p
    rw [hstatus, Tree.reviseSelection_eq]
    exact wrote_eq_self hn hrevising
  | dropped h => exact apply_of_drops h

theorem setFailure_eq_self {n : Node} (hn : p.tree.get? o.node = some n) {message : Option String}
    (hmessage : n.status.failures.get o.kind = message) : p.setFailure o message = p := by
  subst hmessage
  exact setStatus_eq_self hn (by rw [Failures.set_get_self])

/-- Computing a settled output takes over its reads and does nothing else. -/
theorem compute_eq_noted (h : p.Settled evaluate o) :
    p.compute book evaluate o = p.noted evaluate o := by
  obtain ⟨n, hn, hholds⟩ := h.holds
  have hn' : (p.noted evaluate o).tree.get? o.node = some n := hn
  rw [compute_eq]
  split
  next value hvalue =>
    rw [hvalue] at hholds
    rw [setFailure_eq_self hn' hholds.1]
    exact apply_eq_self hn' hholds.2
  next e he =>
    rw [he] at hholds
    exact setFailure_eq_self hn' hholds

theorem settled_noted (h : p.Settled evaluate q) (ho : p.Settled evaluate o) :
    (p.noted evaluate o).Settled evaluate q where
  reads := by
    refine (Schedule.get?_reads_setReads _).trans ?_
    by_cases hq : o = q
    · rw [if_pos hq, hq]
      rfl
    · rw [if_neg hq]
      exact h.reads
  readers := by
    intro x hx hlive
    by_cases hq : q = o
    · subst hq
      exact Schedule.self_mem_readersOf_setReads hx
    · exact Schedule.mem_readersOf_setReads (h.readers x hx hlive) hq
  holds := h.holds

/-- A pass over settled outputs leaves the tree as it is and reports nothing. -/
theorem runUpTo_of_settled (n : Nat) (hlimit : 0 < p.schedule.limit)
    (hsettled : ∀ q ∈ book.outputsAt p.tree q.node, p.isSuppressed q = false →
      p.Settled evaluate q)
    (hdirty : ∀ q ∈ p.schedule.dirty, q ∈ book.outputsAt p.tree q.node ∧ q ∉ p.log) :
    (runUpTo book evaluate n p).tree = p.tree ∧
      (runUpTo book evaluate n p).cycles = p.cycles := by
  -- the invariant: all wanted outputs are settled, and none that is marked has been computed before
  induction n generalizing p with
  | zero => exact ⟨rfl, rfl⟩
  | succ n ih =>
    rw [runUpTo]
    split
    next => exact ⟨rfl, rfl⟩
    next o hnext =>
      obtain ⟨ho, hlog⟩ := hdirty o (Schedule.next?_mem hnext)
      have hunmarked : ∀ q ∈ (p.schedule.unmark o).dirty,
          q ∈ book.outputsAt p.tree q.node ∧ q ∉ p.log :=
        fun q hq => hdirty q (Schedule.mem_unmark.mp hq).1
      have hkept : ∀ q ∈ book.outputsAt p.tree q.node, p.isSuppressed q = false →
          (p.unmarked o).Settled evaluate q := by
        intro q hq hwanted
        obtain ⟨hreads, hreaders, hholds⟩ := hsettled q hq hwanted
        exact ⟨hreads, hreaders, hholds⟩
      rcases p.step_cases o with ⟨heq, _⟩ | ⟨_, _, _, hcount⟩ | ⟨heq, _, _, hwanted, _⟩
      · rw [heq]
        exact ih hlimit hkept hunmarked
      · -- no cycle is reported, as no marked output has used an attempt
        rw [List.count_eq_zero_of_not_mem hlog] at hcount
        omega
      · have hself := hkept o ho hwanted
        rw [heq, compute_eq_noted hself]
        refine ih hlimit (fun q hq hwanted => settled_noted (hkept q hq hwanted) hself) ?_
        intro q hq
        refine ⟨(hunmarked q hq).1, ?_⟩
        rintro (_ | ⟨_, hq'⟩)
        · exact (Schedule.mem_unmark.mp hq).2 rfl
        · exact (hunmarked q hq).2 hq'

end Pass

end ReactiveForm
