import ReactiveForm.Proofs.Schedule.Termination

/-!
# Reads and their reverse index

A schedule keeps what each output has read, and for each node the outputs that have read it. Both
are brought up to date when an output has been computed. When nodes are removed, an output that
stays may have read one of them; it keeps the reads, but the removed node has no entry any more.
-/

set_option autoImplicit false

namespace ReactiveForm

namespace Schedule

variable {lost lost' K K' : NodeId → Prop} {s : Schedule} {o q : Output} {x : NodeId}

/-- The entries are the reads the other way round, except for reads of nodes that are lost. No entry
is empty, and the nodes with entries have the property `K`. -/
structure Indexed (lost K : NodeId → Prop) (s : Schedule) : Prop where
  backed : s.Backed
  listed : ∀ q nodes x, s.reads.get? q = some nodes → x ∈ nodes → lost x ∨ q ∈ s.readersOf x
  filled : ∀ x outputs, (x, outputs) ∈ s.readers → outputs ≠ []
  keys : ∀ x q, s.Enters x q → K x

theorem indexed_ofLimit (limit : Nat) : (ofLimit limit).Indexed lost K where
  backed _ _ := fun ⟨_, hmem, _⟩ => nomatch hmem
  listed := nofun
  filled := nofun
  keys _ _ := fun ⟨_, hmem, _⟩ => nomatch hmem

theorem Indexed.imp (h : s.Indexed lost K) (hlost : ∀ x, lost x → lost' x) (hK : ∀ x, K x → K' x) :
    s.Indexed lost' K' where
  backed := h.backed
  listed q nodes x hq hx := (h.listed q nodes x hq hx).imp (hlost x) id
  filled := h.filled
  keys x q hq := hK x (h.keys x q hq)

theorem Indexed.mark (h : s.Indexed lost K) (outputs : List Output) :
    (s.mark outputs).Indexed lost K :=
  ⟨h.backed, h.listed, h.filled, h.keys⟩

theorem Indexed.unmark (h : s.Indexed lost K) (o : Output) : (s.unmark o).Indexed lost K :=
  ⟨h.backed, h.listed, h.filled, h.keys⟩

/-! ## Entries with readers -/

theorem ne_nil_of_mem_withdraw {gone : Output → Bool} {readers : Table NodeId (List Output)}
    {outputs : List Output} (h : (x, outputs) ∈ withdraw gone readers) : outputs ≠ [] := by
  obtain ⟨⟨y, before⟩, _, heq⟩ := List.mem_filterMap.mp h
  simp only at heq
  split at heq
  · exact nomatch heq
  next hsome =>
    obtain ⟨_, rfl⟩ := Prod.mk.inj (Option.some.inj heq)
    exact fun hnil => hsome (List.isEmpty_iff.mpr hnil)

theorem ne_nil_of_mem_enroll {readers : Table NodeId (List Output)} {id : NodeId}
    (h : ∀ x outputs, (x, outputs) ∈ readers → outputs ≠ []) :
    ∀ x outputs, (x, outputs) ∈ enroll o readers id → outputs ≠ [] := by
  intro x outputs hmem
  simp only [enroll] at hmem
  split at hmem
  · exact h x outputs hmem
  · rcases List.mem_cons.mp hmem with heq | hmem
    · obtain ⟨_, rfl⟩ := Prod.mk.inj heq
      exact List.cons_ne_nil _ _
    · exact h x outputs (List.mem_filter.mp hmem).1

theorem ne_nil_of_mem_foldl_enroll (nodes : List NodeId) {readers : Table NodeId (List Output)}
    (h : ∀ x outputs, (x, outputs) ∈ readers → outputs ≠ []) :
    ∀ x outputs, (x, outputs) ∈ nodes.foldl (enroll o) readers → outputs ≠ [] := by
  induction nodes generalizing readers with
  | nil => exact h
  | cons id nodes ih => exact ih (ne_nil_of_mem_enroll h)

/-! ## Computations -/

/-- The entries of an output follow its reads. -/
theorem Indexed.setReads (h : s.Indexed lost K) (o : Output) {nodes : List NodeId}
    (hnodes : ∀ x ∈ nodes, K x) : (s.setReads o nodes).Indexed lost K where
  backed := h.backed.setReads o nodes
  listed := by
    intro q before x hq hx
    rw [get?_reads_setReads] at hq
    split at hq
    next heq =>
      obtain rfl := Option.some.inj hq
      exact .inr (heq ▸ self_mem_readersOf_setReads hx)
    next hne =>
      refine (h.listed q before x hq hx).imp_right fun hentered => ?_
      exact mem_readersOf_setReads hentered (Ne.symm hne)
  -- what the withdrawal leaves is filled even where the entries before were not
  filled := ne_nil_of_mem_foldl_enroll nodes fun _ _ hmem => ne_nil_of_mem_withdraw hmem
  keys := by
    intro x q hq
    rcases enters_setReads hq with ⟨_, hx⟩ | ⟨_, hq⟩
    · exact hnodes x hx
    · exact h.keys x q hq

/-! ## Removals -/

theorem not_mem_of_enters_forget {removed : List NodeId} (h : (s.forget removed).Enters x q) :
    x ∉ removed := by
  obtain ⟨outputs, hmem, _⟩ := h
  have hkept := (List.mem_filter.mp hmem).2
  simpa using hkept

/-- What is not removed keeps the entries of what is not removed. -/
theorem mem_readersOf_forget {removed : List NodeId} (hq : q ∈ s.readersOf x)
    (hx : x ∉ removed) (hkept : q.node ∉ removed) : q ∈ (s.forget removed).readersOf x := by
  have hget : (s.forget removed).readersOf x
      = ((withdraw (·.node ∈ removed) s.readers).get? x).getD [] := by
    have hwithout := Table.get?_without (withdraw (·.node ∈ removed) s.readers) (· ∈ removed) x
    rw [if_neg (by simpa using hx)] at hwithout
    exact congrArg (·.getD []) hwithout
  rw [hget]
  exact mem_get?_withdraw hq (by simpa using hkept)

/-- The removed nodes are lost from now on, and have no entries. -/
theorem Indexed.forget (h : s.Indexed lost K) {removed : List NodeId}
    (hlost : ∀ x, lost x → lost' x) (hremoved : ∀ x ∈ removed, lost' x)
    (hK : ∀ x, K x → x ∉ removed → K' x) : (s.forget removed).Indexed lost' K' where
  backed := h.backed.forget removed
  listed := by
    intro q nodes x hq hx
    obtain ⟨hkept, hq⟩ := get?_reads_forget hq
    -- an output that stays may have read a removed node, and is still known to have read it
    by_cases hgone : x ∈ removed
    · exact .inl (hremoved x hgone)
    · refine (h.listed q nodes x hq hx).imp (hlost x) fun hentered => ?_
      exact mem_readersOf_forget hentered hgone hkept
  filled _ _ hmem := ne_nil_of_mem_withdraw (List.mem_filter.mp hmem).1
  keys x q hq := hK x (h.keys x q (enters_forget hq).2) (not_mem_of_enters_forget hq)

end Schedule

/-! ## Passes -/

namespace Pass

variable {book : RuleBook} {evaluate : Tree → Output → Outcome} {p p' : Pass} {o : Output}
  {lost K : NodeId → Prop}

theorem indexed_of_writes (h : p.schedule.Indexed lost K) (hwrites : Writes book p p') :
    p'.schedule.Indexed lost K := by
  obtain ⟨outputs, heq, _⟩ := hwrites.marks
  rw [heq]
  exact h.mark outputs

/-- A step keeps the index if what the output reads has the property. -/
theorem indexed_step (hc : p.tree.Coherent) (h : p.schedule.Indexed lost K)
    (hreads : p.tree.contains o.node → ∀ x ∈ (evaluate p.tree o).reads, K x) :
    (p.step book evaluate o).schedule.Indexed lost K := by
  have hunmarked : (p.unmarked o).schedule.Indexed lost K := h.unmark o
  rcases p.step_cases o with ⟨heq, _⟩ | ⟨heq, _⟩ | ⟨heq, hlive, _⟩
  · rw [heq]
    exact hunmarked
  · rw [heq]
    exact hunmarked
  · rw [heq]
    have hcoherent : (p.unmarked o).tree.Coherent := hc
    have hnoted : ((p.unmarked o).noted evaluate o).schedule.Indexed lost K :=
      hunmarked.setReads o (hreads hlive)
    exact indexed_of_writes hnoted (writes_compute hcoherent o)

/-- A pass keeps the index if what the outputs of live nodes read has the property, whatever has
been written to the tree. -/
theorem indexed_runUpTo (n : Nat) (hc : p.tree.Coherent) (h : p.schedule.Indexed lost K)
    (hreads : ∀ t, p.tree.SameFrame t → t.Coherent → ∀ o, t.contains o.node →
      ∀ x ∈ (evaluate t o).reads, K x) :
    (runUpTo book evaluate n p).schedule.Indexed lost K := by
  induction n generalizing p with
  | zero => exact h
  | succ n ih =>
    rw [runUpTo]
    split
    next => exact h
    next o _ =>
      have hfollows : p.Follows (p.step book evaluate o) := follows_step evaluate hc o
      refine ih hfollows.coherent (indexed_step hc h (hreads p.tree (.refl p.tree) hc o)) ?_
      exact fun t hframe => hreads t (hfollows.frame.trans hframe)

end Pass

end ReactiveForm
