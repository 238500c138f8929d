import Mathlib.Algebra.Ring.Nat
import ReactiveForm.Proofs.Schedule.Store

/-!
# The end of a pass

A pass ends with no output marked. What is marked stays within the outputs that were within reach at
the start. A step takes one mark away, and only a computation sets new ones; but every output is
computed a limited number of times.
-/

set_option autoImplicit false

namespace ReactiveForm

namespace Schedule

variable {s : Schedule} {o : Output}

theorem next?_mem (h : s.next? = some o) : o ∈ s.dirty := by
  unfold next? at h
  cases hfind : s.dirty.find? (s.isReady s.pending) with
  | some q =>
    rw [hfind, Option.some_or] at h
    obtain rfl := Option.some.inj h
    exact List.mem_of_find?_eq_some hfind
  | none =>
    rw [hfind, Option.none_or] at h
    exact List.mem_of_head? h

theorem dirty_eq_nil (h : s.next? = none) : s.dirty = [] := by
  unfold next? at h
  exact List.head?_eq_none_iff.mp (Option.or_eq_none_iff.mp h).2

end Schedule

namespace Pass

variable {book : RuleBook} {evaluate : Tree → Output → Outcome} {p p' : Pass} {o q : Output}
  {reach : List Output}

/-- The pass with one mark taken away. -/
def unmarked (p : Pass) (o : Output) : Pass := { p with schedule := p.schedule.unmark o }

/-- A step does nothing, reports a cycle, or computes an output. -/
theorem step_cases (p : Pass) (o : Output) :
    p.step book evaluate o = p.unmarked o ∧
        (p.tree.contains o.node = false ∨ p.hasCycle o ∨ p.isSuppressed o) ∨
    p.step book evaluate o = (p.unmarked o).reportCycle o ∧ p.tree.contains o.node ∧
        p.hasCycle o = false ∧ p.schedule.limit ≤ p.log.count o ∨
    p.step book evaluate o = (p.unmarked o).compute book evaluate o ∧ p.tree.contains o.node ∧
        p.hasCycle o = false ∧ p.isSuppressed o = false ∧ p.log.count o < p.schedule.limit := by
  have hsuppressed : (p.unmarked o).isSuppressed o = p.isSuppressed o := rfl
  have hcycle : (p.unmarked o).hasCycle o = p.hasCycle o := rfl
  have hstep : p.step book evaluate o
      = if !p.tree.contains o.node || (p.unmarked o).hasCycle o then p.unmarked o
        else if p.schedule.limit ≤ p.log.count o then (p.unmarked o).reportCycle o
        else if (p.unmarked o).isSuppressed o then p.unmarked o
        else (p.unmarked o).compute book evaluate o := rfl
  simp only [hstep, hsuppressed, hcycle]
  cases hc : p.tree.contains o.node <;> cases hh : p.hasCycle o <;>
    cases hs : p.isSuppressed o <;> by_cases hl : p.schedule.limit ≤ p.log.count o <;>
    simp [hl, Nat.not_le.mp]

/-- What every pass keeps. -/
structure Follows (p p' : Pass) : Prop where
  frame : p.tree.SameFrame p'.tree
  coherent : p'.tree.Coherent
  slots : p.tree.arena.SameSlots p'.tree.arena
  limit : p'.schedule.limit = p.schedule.limit

theorem Follows.refl (h : p.tree.Coherent) : p.Follows p :=
  ⟨.refl p.tree, h, .refl _, rfl⟩

theorem follows_compute (evaluate : Tree → Output → Outcome) (h : p.tree.Coherent) (o : Output) :
    p.Follows (p.compute book evaluate o) := by
  have hwrites : Writes book (p.noted evaluate o) (p.compute book evaluate o) := writes_compute h o
  obtain ⟨outputs, hmarks, _⟩ := hwrites.marks
  refine ⟨hwrites.frame, hwrites.coherent, hwrites.slots, ?_⟩
  rw [hmarks]
  rfl

theorem follows_step (evaluate : Tree → Output → Outcome) (h : p.tree.Coherent) (o : Output) :
    p.Follows (p.step book evaluate o) := by
  rcases p.step_cases o with ⟨heq, _⟩ | ⟨heq, _⟩ | ⟨heq, _⟩
  · rw [heq]
    exact ⟨.refl p.tree, h, .refl _, rfl⟩
  · rw [heq]
    exact ⟨.refl p.tree, h, .refl _, rfl⟩
  · rw [heq]
    have hunmarked : (p.unmarked o).tree.Coherent := h
    obtain ⟨hframe, hcoherent, hslots, hlimit⟩ :
        (p.unmarked o).Follows ((p.unmarked o).compute book evaluate o) :=
      follows_compute evaluate hunmarked o
    exact ⟨hframe, hcoherent, hslots, hlimit⟩

theorem follows_runUpTo (evaluate : Tree → Output → Outcome) (n : Nat) (h : p.tree.Coherent) :
    p.Follows (runUpTo book evaluate n p) := by
  induction n generalizing p with
  | zero => exact .refl h
  | succ n ih =>
    rw [runUpTo]
    split
    next => exact .refl h
    next o _ =>
      have hstep : p.Follows (p.step book evaluate o) := follows_step evaluate h o
      have hrest := ih hstep.coherent
      exact ⟨hstep.frame.trans hrest.frame, hrest.coherent, hstep.slots.trans hrest.slots,
        hrest.limit.trans hstep.limit⟩

/-! ## Steps one after the other -/

theorem runUpTo_of_next? (h : p.schedule.next? = none) (n : Nat) :
    runUpTo book evaluate n p = p := by
  cases n with
  | zero => rfl
  | succ n => rw [runUpTo, h]

theorem runUpTo_add (m n : Nat) (p : Pass) :
    runUpTo book evaluate (m + n) p = runUpTo book evaluate n (runUpTo book evaluate m p) := by
  induction m generalizing p with
  | zero => rw [Nat.zero_add, runUpTo]
  | succ m ih =>
    rw [Nat.succ_add, runUpTo, runUpTo]
    cases hnext : p.schedule.next? with
    | none => exact (runUpTo_of_next? hnext n).symm
    | some o => exact ih _

/-- One more step is a step from where the pass has come to. -/
theorem runUpTo_succ_of_next? {k : Nat}
    (h : (runUpTo book evaluate k p).schedule.next? = some o) :
    runUpTo book evaluate (k + 1) p = (runUpTo book evaluate k p).step book evaluate o := by
  rw [runUpTo_add, runUpTo, h]
  rfl

/-! ## What is marked -/

/-- What is marked or may come to be marked has the property `K`. Only the readers of nodes with the
property `R` count, which live nodes have. -/
structure Within (book : RuleBook) (R : NodeId → Prop) (K : Output → Prop) (p : Pass) : Prop where
  live : ∀ x, p.tree.contains x → R x
  dirty : ∀ q ∈ p.schedule.dirty, K q
  readers : ∀ x q, R x → p.schedule.Enters x q → K q
  outputs : ∀ q ∈ book.outputsAt p.tree q.node, K q

variable {R : NodeId → Prop} {K : Output → Prop}

theorem Within.of_writes (h : p.Within book R K) (hwrites : Writes book p p') :
    p'.Within book R K := by
  obtain ⟨outputs, heq, hmarks⟩ := hwrites.marks
  exact
    { live := by
        intro x hx
        rw [hwrites.frame.contains_eq] at hx
        exact h.live x hx
      dirty := by
        intro q hq
        rw [heq] at hq
        rcases Schedule.mem_mark.mp hq with hq | hq
        · exact h.dirty q hq
        -- what is marked has read a live node or belongs to one
        · rcases hmarks q hq with ⟨x, n, hn, hx⟩ | hq
          · have hlive : R x := h.live x (Arena.contains_iff.mpr ⟨n, hn⟩)
            exact h.readers x q hlive (Schedule.enters_of_mem_readersOf hx)
          · exact h.outputs q hq
      readers := by
        intro x q hx hq
        rw [heq] at hq
        exact h.readers x q hx hq
      outputs := by
        intro q hq
        rw [RuleBook.outputsAt_eq hwrites.frame] at hq
        exact h.outputs q hq }

theorem Within.imp {S : NodeId → Prop} {L : Output → Prop} (h : p.Within book R K)
    (hlive : ∀ x, p.tree.contains x → S x) (hSR : ∀ x, S x → R x) (hKL : ∀ q, K q → L q) :
    p.Within book S L where
  live := hlive
  dirty q hq := hKL q (h.dirty q hq)
  readers x q hx hq := hKL q (h.readers x q (hSR x hx) hq)
  outputs q hq := hKL q (h.outputs q hq)

theorem Within.mono {L : Output → Prop} (h : p.Within book R K) (hKL : ∀ q, K q → L q) :
    p.Within book R L :=
  h.imp h.live (fun _ hx => hx) hKL

theorem Within.noted (evaluate : Tree → Output → Outcome) (h : p.Within book R K) (ho : K o) :
    (p.noted evaluate o).Within book R K where
  live := h.live
  dirty := h.dirty
  readers := by
    intro x q hx hq
    rcases Schedule.enters_setReads hq with ⟨rfl, _⟩ | ⟨_, hq⟩
    · exact ho
    · exact h.readers x q hx hq
  outputs := h.outputs

theorem Within.unmarked (h : p.Within book R K) (o : Output) :
    (p.unmarked o).Within book R K where
  live := h.live
  dirty q hq := h.dirty q (Schedule.mem_unmark.mp hq).1
  readers := h.readers
  outputs := h.outputs

theorem Within.step (evaluate : Tree → Output → Outcome) (h : p.Within book R K)
    (hc : p.tree.Coherent) (ho : o ∈ p.schedule.dirty) :
    (p.step book evaluate o).Within book R K := by
  have hunmarked := h.unmarked o
  rcases p.step_cases o with ⟨heq, _⟩ | ⟨heq, _⟩ | ⟨heq, _⟩
  · rw [heq]
    exact hunmarked
  · rw [heq]
    exact ⟨hunmarked.live, hunmarked.dirty, hunmarked.readers, hunmarked.outputs⟩
  · rw [heq]
    have hcoherent : (p.unmarked o).tree.Coherent := hc
    exact (hunmarked.noted evaluate (h.dirty o ho)).of_writes (writes_compute hcoherent o)

/-- Only outputs with the property have been computed in the pass or in passes before. -/
structure Keeps (K : Output → Prop) (p : Pass) : Prop where
  log : ∀ q ∈ p.log, K q
  reads : ∀ q nodes, p.schedule.reads.get? q = some nodes → K q

theorem Keeps.of_writes (h : p.Keeps K) (hwrites : Writes book p p') : p'.Keeps K := by
  obtain ⟨outputs, heq, _⟩ := hwrites.marks
  refine ⟨fun q hq => h.log q (hwrites.log ▸ hq), fun q nodes hq => h.reads q nodes ?_⟩
  rwa [heq] at hq

theorem Keeps.mono {L : Output → Prop} (h : p.Keeps K) (hKL : ∀ q, K q → L q) : p.Keeps L :=
  ⟨fun q hq => hKL q (h.log q hq), fun q nodes hq => hKL q (h.reads q nodes hq)⟩

theorem Keeps.noted (evaluate : Tree → Output → Outcome) (h : p.Keeps K) (ho : K o) :
    (p.noted evaluate o).Keeps K where
  log := by
    intro q hq
    rcases List.mem_cons.mp hq with rfl | hq
    · exact ho
    · exact h.log q hq
  reads := by
    intro q nodes hq
    have hq : (p.schedule.setReads o _).reads.get? q = some nodes := hq
    rw [Schedule.get?_reads_setReads] at hq
    split at hq
    next heq => exact heq ▸ ho
    next => exact h.reads q nodes hq

theorem Keeps.step (evaluate : Tree → Output → Outcome) (h : p.Keeps K) (hc : p.tree.Coherent)
    (ho : K o) : (p.step book evaluate o).Keeps K := by
  have hunmarked : (p.unmarked o).Keeps K := ⟨h.log, h.reads⟩
  rcases p.step_cases o with ⟨heq, _⟩ | ⟨heq, _⟩ | ⟨heq, _⟩
  · rw [heq]
    exact hunmarked
  · rw [heq]
    exact ⟨h.log, h.reads⟩
  · rw [heq]
    have hcoherent : (p.unmarked o).tree.Coherent := hc
    exact (hunmarked.noted evaluate ho).of_writes (writes_compute hcoherent o)

/-- What a pass marks and computes stays within what it starts with. -/
theorem within_runUpTo (evaluate : Tree → Output → Outcome) (n : Nat) (hc : p.tree.Coherent)
    (h : p.Within book R K) (hkeeps : p.Keeps K) :
    (runUpTo book evaluate n p).Within book R K ∧ (runUpTo book evaluate n p).Keeps K := by
  induction n generalizing p with
  | zero => exact ⟨h, hkeeps⟩
  | succ n ih =>
    rw [runUpTo]
    split
    next => exact ⟨h, hkeeps⟩
    next o hnext =>
      have ho := Schedule.next?_mem hnext
      have hfollows : p.Follows (p.step book evaluate o) := follows_step evaluate hc o
      exact ih hfollows.coherent (h.step evaluate hc ho) (hkeeps.step evaluate hc (h.dirty o ho))

/-! ## The end -/

/-- How many computations the limit leaves to the outputs within reach. -/
def attempts (p : Pass) (reach : List Output) : Nat :=
  (reach.map fun q => p.schedule.limit - p.log.count q).sum

/-- What a step makes smaller. -/
def measure (p : Pass) (reach : List Output) : Nat :=
  p.schedule.dirty.length + reach.length * p.attempts reach

theorem attempts_le (p : Pass) (reach : List Output) :
    p.attempts reach ≤ p.schedule.limit * reach.length := by
  unfold attempts
  induction reach with
  | nil => simp
  | cons q reach ih =>
    rw [List.map_cons, List.sum_cons, List.length_cons, Nat.mul_succ]
    omega

/-- A computation takes an attempt from its output and from no other one. -/
theorem attempts_lt {p' : Pass} (hlimit : p'.schedule.limit = p.schedule.limit)
    (hlog : p'.log = o :: p.log) (hcount : p.log.count o < p.schedule.limit) (ho : o ∈ reach) :
    p'.attempts reach < p.attempts reach := by
  have hle (q : Output) : p'.schedule.limit - p'.log.count q ≤ p.schedule.limit - p.log.count q := by
    rw [hlimit, hlog, List.count_cons]
    omega
  have hlt : p'.schedule.limit - p'.log.count o < p.schedule.limit - p.log.count o := by
    rw [hlimit, hlog, List.count_cons_self]
    omega
  unfold attempts
  -- the sum is split at `o`, the one term that becomes less
  obtain ⟨xs, ys, rfl⟩ := List.append_of_mem ho
  have hsum (zs : List Output) :
      (zs.map fun q => p'.schedule.limit - p'.log.count q).sum
        ≤ (zs.map fun q => p.schedule.limit - p.log.count q).sum := by
    induction zs with
    | nil => exact Nat.le_refl _
    | cons z zs ih =>
      simp only [List.map_cons, List.sum_cons]
      exact Nat.add_le_add (hle z) ih
  have hxs := hsum xs
  have hys := hsum ys
  simp only [List.map_append, List.map_cons, List.sum_append, List.sum_cons]
  omega

theorem length_unmark_lt {s : Schedule} (ho : o ∈ s.dirty) :
    (s.unmark o).dirty.length < s.dirty.length := by
  refine List.length_filter_lt_length_iff_exists.mpr ⟨o, ho, ?_⟩
  simp

theorem ordered_compute (evaluate : Tree → Output → Outcome) (h : p.tree.Coherent)
    (hordered : Ascends compare p.schedule.dirty) (o : Output) :
    Ascends compare (p.compute book evaluate o).schedule.dirty := by
  have hwrites : Writes book (p.noted evaluate o) (p.compute book evaluate o) := writes_compute h o
  obtain ⟨outputs, heq, _⟩ := hwrites.marks
  rw [heq]
  exact Schedule.ascends_mark hordered outputs

variable (evaluate)

theorem attempts_compute_lt (h : p.tree.Coherent) (hcount : p.log.count o < p.schedule.limit)
    (ho : o ∈ reach) : (p.compute book evaluate o).attempts reach < p.attempts reach := by
  have hwrites : Writes book (p.noted evaluate o) (p.compute book evaluate o) := writes_compute h o
  exact attempts_lt (follows_compute evaluate h o).limit hwrites.log hcount ho

/-- A pass whose marks stay among the outputs within reach. -/
structure Bounded (book : RuleBook) (reach : List Output) (p : Pass) : Prop
    extends Within book (fun _ => True) (· ∈ reach) p where
  coherent : p.tree.Coherent
  ordered : Ascends compare p.schedule.dirty

theorem Bounded.length_le (h : p.Bounded book reach) : p.schedule.dirty.length ≤ reach.length :=
  (OutputSet.nodup_of_ascends h.ordered).length_le_of_subset h.dirty

theorem Bounded.step (h : p.Bounded book reach) (ho : o ∈ p.schedule.dirty) :
    (p.step book evaluate o).Bounded book reach ∧
      (p.step book evaluate o).measure reach < p.measure reach := by
  have hwithin := h.toWithin.step evaluate h.coherent ho
  have hcoherent : (p.step book evaluate o).tree.Coherent :=
    (follows_step evaluate h.coherent o).coherent
  have hunmarked : Ascends compare (p.unmarked o).schedule.dirty :=
    Schedule.ascends_unmark h.ordered
  have hless : (p.schedule.unmark o).dirty.length < p.schedule.dirty.length := length_unmark_lt ho
  -- skipping and reporting lower the number of marks; a computation may mark all outputs, but it
  -- takes an attempt, which weighs more than all marks together
  rcases p.step_cases o with ⟨heq, _⟩ | ⟨heq, _⟩ | ⟨heq, _, _, _, hcount⟩
  · rw [heq] at hwithin hcoherent ⊢
    exact ⟨⟨hwithin, hcoherent, hunmarked⟩, Nat.add_lt_add_right hless _⟩
  · rw [heq] at hwithin hcoherent ⊢
    exact ⟨⟨hwithin, hcoherent, hunmarked⟩, Nat.add_lt_add_right hless _⟩
  · rw [heq] at hwithin hcoherent ⊢
    have hafter : ((p.unmarked o).compute book evaluate o).Bounded book reach := by
      have hbefore : (p.unmarked o).tree.Coherent := h.coherent
      exact ⟨hwithin, hcoherent, ordered_compute evaluate hbefore hunmarked o⟩
    refine ⟨hafter, ?_⟩
    have hattempts : ((p.unmarked o).compute book evaluate o).attempts reach < p.attempts reach :=
      attempts_compute_lt evaluate h.coherent hcount (h.dirty o ho)
    have hlength := hafter.length_le
    have hmul := Nat.mul_le_mul_left reach.length hattempts
    rw [Nat.mul_succ] at hmul
    unfold measure
    omega

theorem runUpTo_dirty (h : p.Bounded book reach) {n : Nat} (hn : p.measure reach ≤ n) :
    (runUpTo book evaluate n p).schedule.dirty = [] := by
  induction n generalizing p with
  | zero =>
    refine List.length_eq_zero_iff.mp ?_
    change p.schedule.dirty.length = 0
    unfold measure at hn
    omega
  | succ n ih =>
    rw [runUpTo]
    split
    next hnext => exact Schedule.dirty_eq_nil hnext
    next o hnext =>
      obtain ⟨hstep, hless⟩ := h.step evaluate (Schedule.next?_mem hnext)
      exact ih hstep (by omega)

theorem bounded_reach (h : p.tree.Coherent) (hordered : Ascends compare p.schedule.dirty) :
    p.Bounded book (p.reach book) where
  live _ _ := trivial
  dirty q hq := List.mem_append_left _ (List.mem_append_left _ hq)
  readers x q _ hq := by
    obtain ⟨outputs, hmem, hq⟩ := hq
    exact List.mem_append_left _ (List.mem_append_right _ (List.mem_flatMap.mpr ⟨_, hmem, hq⟩))
  outputs q hq := List.mem_append_right _ ((RuleBook.mem_outputs h.connected).mpr hq)
  coherent := h
  ordered := hordered

theorem measure_le_budget (p : Pass) : p.measure (p.reach book) ≤ p.budget book := by
  have hdirty : p.schedule.dirty.length ≤ (p.reach book).length := by
    simp only [reach, List.length_append]
    omega
  have hattempts := Nat.mul_le_mul_left (p.reach book).length (p.attempts_le (p.reach book))
  unfold measure budget
  simp only [Nat.mul_add, Nat.mul_one]
  omega

/-- A pass ends with no output marked. -/
theorem run_dirty (h : p.tree.Coherent) (hordered : Ascends compare p.schedule.dirty) :
    (p.run book evaluate).schedule.dirty = [] :=
  runUpTo_dirty evaluate (bounded_reach h hordered) p.measure_le_budget

end Pass

end ReactiveForm
