import ReactiveForm.Proofs.Outcome
import ReactiveForm.Proofs.Schedule.Repeat

/-!
# Passes end at rest

A pass may start from any schedule whose readers are those that the recorded reads make them. If all
outputs that are neither marked nor unwanted are at rest then, and no cycle is reported, the pass
leaves all wanted outputs at rest.
-/

set_option autoImplicit false

namespace ReactiveForm

namespace Schedule

variable {book : RuleBook} {t t' : Tree} {s : Schedule} {o q : Output} {x : NodeId}

/-- All that is scheduled for live nodes is declared, and on live nodes the readers are the inverse
of the reads. -/
structure Suits (book : RuleBook) (t : Tree) (s : Schedule) : Prop extends s.Regular where
  dirty : ∀ q ∈ s.dirty, book.Covers t q
  reads : ∀ q nodes, s.reads.get? q = some nodes → book.Covers t q
  inverse : ∀ x q, t.contains x → t.contains q.node →
    (q ∈ s.readersOf x ↔ ∃ nodes, s.reads.get? q = some nodes ∧ x ∈ nodes)

theorem Suits.of_sameFrame (h : s.Suits book t) (hframe : t.SameFrame t') : s.Suits book t' where
  toRegular := h.toRegular
  dirty q hq := (RuleBook.covers_eq hframe).mpr (h.dirty q hq)
  reads q nodes hq := (RuleBook.covers_eq hframe).mpr (h.reads q nodes hq)
  inverse x q := by
    rw [hframe.contains_eq, hframe.contains_eq]
    exact h.inverse x q

theorem Suits.reader (h : s.Suits book t) (hx : t.contains x) (hq : q ∈ s.readersOf x) :
    book.Covers t q := by
  intro hlive
  obtain ⟨nodes, hnodes, _⟩ := (h.inverse x q hx hlive).mp hq
  exact h.reads q nodes hnodes hlive

theorem suits_ofLimit (book : RuleBook) (t : Tree) (limit : Nat) : (ofLimit limit).Suits book t where
  ordered := .nil
  distinct := .nil
  dirty := nofun
  reads := nofun
  inverse _ _ _ _ := ⟨nofun, nofun⟩

theorem Suits.mark (h : s.Suits book t) {outputs : List Output}
    (hcovers : ∀ q ∈ outputs, book.Covers t q) : (s.mark outputs).Suits book t where
  toRegular := h.toRegular.mark outputs
  dirty q hq := (mem_mark.mp hq).elim (h.dirty q) (hcovers q)
  reads := h.reads
  inverse := h.inverse

theorem Suits.unmark (h : s.Suits book t) (o : Output) : (s.unmark o).Suits book t where
  toRegular := h.toRegular.unmark o
  dirty q hq := h.dirty q (mem_unmark.mp hq).1
  reads := h.reads
  inverse := h.inverse

theorem Regular.mem_readersOf_setReads_iff (h : s.Regular) {nodes : List NodeId} :
    q ∈ (s.setReads o nodes).readersOf x ↔ q = o ∧ x ∈ nodes ∨ q ≠ o ∧ q ∈ s.readersOf x := by
  constructor
  · intro hq
    rw [h.mem_readersOf_iff]
    exact enters_setReads (enters_of_mem_readersOf hq)
  · rintro (⟨rfl, hx⟩ | ⟨hne, hq⟩)
    · exact self_mem_readersOf_setReads hx
    · exact mem_readersOf_setReads hq hne

theorem Suits.setReads (h : s.Suits book t) (ho : book.Covers t o) (nodes : List NodeId) :
    (s.setReads o nodes).Suits book t where
  toRegular := h.toRegular.setReads o nodes
  dirty := h.dirty
  reads := by
    intro q before hq
    rw [get?_reads_setReads] at hq
    split at hq
    next heq => exact heq ▸ ho
    next => exact h.reads q before hq
  inverse := by
    intro x q hx hlive
    rw [h.toRegular.mem_readersOf_setReads_iff, get?_reads_setReads, h.inverse x q hx hlive]
    by_cases heq : o = q
    · simp [heq]
    · simp [heq, Ne.symm heq]

end Schedule

namespace Pass

variable {book : RuleBook} {evaluate : Tree → Output → Outcome} {t : Tree} {p p' : Pass}
  {o q : Output}

/-! ## Schedules from step to step -/

theorem suits_of_writes (h : p.schedule.Suits book p.tree) (hwrites : Writes book p p') :
    p'.schedule.Suits book p'.tree := by
  obtain ⟨outputs, heq, hmarks⟩ := hwrites.marks
  refine Schedule.Suits.of_sameFrame ?_ hwrites.frame
  rw [heq]
  refine h.mark fun q hq => ?_
  rcases hmarks q hq with ⟨x, n, hn, hx⟩ | hdeclared
  · exact h.reader (Arena.contains_iff.mpr ⟨n, hn⟩) hx
  · exact fun _ => hdeclared

theorem suits_step (evaluate : Tree → Output → Outcome) (hc : p.tree.Coherent)
    (h : p.schedule.Suits book p.tree) (ho : o ∈ p.schedule.dirty) :
    (p.step book evaluate o).schedule.Suits book (p.step book evaluate o).tree := by
  have hunmarked : (p.unmarked o).schedule.Suits book (p.unmarked o).tree := h.unmark o
  rcases p.step_cases o with ⟨heq, _⟩ | ⟨heq, _⟩ | ⟨heq, _⟩
  · rw [heq]
    exact hunmarked
  · rw [heq]
    exact hunmarked
  · rw [heq]
    have hcoherent : (p.unmarked o).tree.Coherent := hc
    have hnoted : ((p.unmarked o).noted evaluate o).schedule.Suits book
        ((p.unmarked o).noted evaluate o).tree := hunmarked.setReads (h.dirty o ho) _
    exact suits_of_writes hnoted (writes_compute hcoherent o)

/-- A pass keeps the readers the inverse of the reads. -/
theorem suits_runUpTo (evaluate : Tree → Output → Outcome) (n : Nat) (hc : p.tree.Coherent)
    (h : p.schedule.Suits book p.tree) :
    (runUpTo book evaluate n p).schedule.Suits book (runUpTo book evaluate n p).tree := by
  induction n generalizing p with
  | zero => exact h
  | succ n ih =>
    rw [runUpTo]
    split
    next => exact h
    next o hnext =>
      have hfollows : p.Follows (p.step book evaluate o) := follows_step evaluate hc o
      exact ih hfollows.coherent (suits_step evaluate hc h (Schedule.next?_mem hnext))

/-! ## Rest -/

/-- To compute the output would change neither the tree, failures included, nor the nodes that it
is known to have read. -/
structure AtRest (book : RuleBook) (evaluate : Tree → Output → Outcome) (p : Pass) (q : Output) :
    Prop where
  tree : (p.compute book evaluate q).tree = p.tree
  reads : p.schedule.reads.get? q = some (evaluate p.tree q).reads

theorem Settled.atRest (h : p.Settled evaluate q) : p.AtRest book evaluate q where
  tree := by
    rw [compute_eq_noted h]
    rfl
  reads := h.reads

theorem AtRest.settled (h : p.AtRest book evaluate q) (hs : p.schedule.Suits book p.tree)
    (hlive : ∃ n, p.tree.get? q.node = some n) : p.Settled evaluate q where
  reads := h.reads
  readers := by
    intro x hx hlive'
    exact (hs.inverse x q hlive' (Arena.contains_iff.mpr hlive)).mpr ⟨_, h.reads, hx⟩
  holds := by
    obtain ⟨n, hn⟩ := hlive
    have hcomputed : ∃ n', (p.compute book evaluate q).tree.get? q.node = some n' ∧
        n'.Holds q.kind (evaluate p.tree q).result := holds_compute hn
    rwa [h.tree] at hcomputed

/-- A pass that reports no cycle leaves all wanted outputs at rest, if it starts with all wanted
outputs at rest but those that are marked. -/
theorem atRest_run {s : Schedule} (hc : t.Coherent) (hdivided : book.Divided)
    (htraces : t.Traces evaluate) (hs : s.Suits book t)
    (hrest : ∀ q ∈ book.outputsAt t q.node, q ∉ s.dirty →
      isSuppressed { tree := t, schedule := s } q = false →
      AtRest book evaluate { tree := t, schedule := s } q)
    (hcycles : (run book evaluate { tree := t, schedule := s }).cycles = []) :
    ∀ q ∈ book.outputsAt (run book evaluate { tree := t, schedule := s }).tree q.node,
      (run book evaluate { tree := t, schedule := s }).isSuppressed q = false →
      (run book evaluate { tree := t, schedule := s }).AtRest book evaluate q := by
  let p : Pass := { tree := t, schedule := s }
  -- what is at rest is settled, so the invariant of passes holds at the start, and at the end it
  -- speaks of all outputs, as none is marked there
  have hstart : p.Consistent book evaluate t :=
    { frame := .refl t
      coherent := hc
      within :=
        { live := fun _ hx => hx
          dirty := hs.dirty
          readers := fun x q hx hq => hs.reader hx (hs.toRegular.mem_readersOf_iff.mpr hq)
          outputs := fun _ hq _ => hq }
      settled := fun q hq hdirty _ hwanted =>
        (hrest q hq hdirty hwanted).settled hs (RuleBook.exists_get?_of_mem hq) }
  have hend : (p.run book evaluate).Consistent book evaluate t :=
    hstart.runUpTo htraces hdivided _
  have hdirty : (p.run book evaluate).schedule.dirty = [] := run_dirty evaluate hc hs.ordered
  intro q hq hwanted
  refine (hend.settled q hq ?_ ?_ hwanted).atRest
  · rw [hdirty]
    exact List.not_mem_nil
  · unfold hasCycle
    rw [hcycles]
    rfl

end Pass

/-! ## A pass after a write -/

def Definition.badge : Definition :=
  .root ⟨"/f", "f", {}, none, none⟩ [
    .value ⟨"/f/a", "a", {}, none, none⟩ "",
    .value ⟨"/f/b", "b", { calculate := some "/f/a" }, none, none⟩ "",
    .value ⟨"/f/c", "c", { calculate := some "'k'" }, none, none⟩ ""]

def Logic.badge : Logic where
  rules := [
    ("/f/b", { expressions := [(.calculate, .path .root
      [⟨.child, .name "f", []⟩, ⟨.child, .name "a", []⟩])] }),
    ("/f/c", { expressions := [(.calculate, .text "k")] })]
  library := .builtins

namespace Pass

/-- The pass over all outputs of a new tree, at its start. -/
def fresh (book : RuleBook) (t : Tree) (limit : Nat) : Pass where
  tree := t
  schedule := (Schedule.ofLimit limit).mark (book.outputs t)

/-- The first pass over the tree. -/
def badgeFirst : Pass :=
  (fresh Logic.badge.rules (.ofDefinition .badge) 16).run Logic.badge.rules Logic.badge.outcome

/-- After the first pass, the node `a` has been written to, so that its reader `b` is marked. -/
def badge : Pass :=
  let p := badgeFirst.wrote ⟨1, 0⟩ (badgeFirst.tree.write ⟨1, 0⟩ "x")
  { tree := p.tree, schedule := p.schedule }

theorem suits_fresh (book : RuleBook) {t : Tree} (hc : t.Coherent) (limit : Nat) :
    (fresh book t limit).schedule.Suits book t := by
  refine (Schedule.suits_ofLimit book t limit).mark fun q hq => ?_
  exact fun _ => (RuleBook.mem_outputs hc.connected).mp hq

theorem suits_badge : (Tree.ofDefinition .badge).SameFrame badge.tree ∧ badge.tree.Coherent ∧
    badge.schedule.Suits Logic.badge.rules badge.tree := by
  have hsound : (Tree.ofDefinition .badge).Sound False := Tree.sound_ofDefinition nofun
  have hcoherent : (fresh Logic.badge.rules (.ofDefinition .badge) 16).tree.Coherent :=
    hsound.toCoherent
  have hfollows : (fresh Logic.badge.rules (.ofDefinition .badge) 16).Follows badgeFirst :=
    follows_runUpTo Logic.badge.outcome _ hcoherent
  have hsuits : badgeFirst.schedule.Suits Logic.badge.rules badgeFirst.tree :=
    suits_runUpTo Logic.badge.outcome _ hcoherent (suits_fresh _ hcoherent 16)
  have hwrites : Writes Logic.badge.rules badgeFirst
      (badgeFirst.wrote ⟨1, 0⟩ (badgeFirst.tree.write ⟨1, 0⟩ "x")) := by
    rw [Tree.write_eq]
    exact writes_wrote hfollows.coherent (Node.fits_writing "x") ⟨1, 0⟩
  have hwritten := suits_of_writes hsuits hwrites
  exact ⟨hfollows.frame.trans hwrites.frame, hwrites.coherent, hwritten⟩

theorem traces_badge : badge.tree.Traces Logic.badge.outcome := by
  have hshape : Definition.badge.Shaped := ⟨rfl, trivial, rfl, trivial, rfl, trivial, trivial⟩
  have hplain : Logic.badge.rules.Plain := RuleBook.forall_get? (by decide)
  have hw : (Tree.ofDefinition .badge).WellFormed := Tree.wellFormed_ofDefinition hshape rfl
  exact Logic.traces rfl hplain.traceable (suits_badge.1.wellFormed hw)

set_option maxRecDepth 20000 in
theorem atRest_badge : badge.AtRest Logic.badge.rules Logic.badge.outcome
    ⟨⟨3, 0⟩, .bind .calculate⟩ := ⟨by rfl, by rfl⟩

theorem atRest_run_badge : badge.schedule.dirty = [⟨⟨2, 0⟩, .bind .calculate⟩] ∧
    (badge.run Logic.badge.rules Logic.badge.outcome).cycles = [] ∧
    ∀ q ∈ Logic.badge.rules.outputsAt (badge.run Logic.badge.rules Logic.badge.outcome).tree q.node,
      (badge.run Logic.badge.rules Logic.badge.outcome).isSuppressed q = false →
      (badge.run Logic.badge.rules Logic.badge.outcome).AtRest Logic.badge.rules
        Logic.badge.outcome q := by
  obtain ⟨_, hcoherent, hsuits⟩ := suits_badge
  have hdivided : Logic.badge.rules.Divided := RuleBook.forall_get? (by decide)
  have hdirty : badge.schedule.dirty = [⟨⟨2, 0⟩, .bind .calculate⟩] := by decide +kernel
  have hcycles : (badge.run Logic.badge.rules Logic.badge.outcome).cycles = [] := by
    decide +kernel
  have houtputs : Logic.badge.rules.outputs badge.tree
      = [⟨⟨2, 0⟩, .bind .calculate⟩, ⟨⟨3, 0⟩, .bind .calculate⟩] := by decide +kernel
  have hrest : ∀ q ∈ Logic.badge.rules.outputsAt badge.tree q.node, q ∉ badge.schedule.dirty →
      badge.isSuppressed q = false → badge.AtRest Logic.badge.rules Logic.badge.outcome q := by
    intro q hq hmarked _
    rw [← RuleBook.mem_outputs hcoherent.connected, houtputs] at hq
    rw [hdirty] at hmarked
    rcases List.mem_cons.mp hq with rfl | hq
    · exact absurd List.mem_cons_self hmarked
    · obtain rfl := List.mem_singleton.mp hq
      exact atRest_badge
  exact ⟨hdirty, hcycles, atRest_run hcoherent hdivided traces_badge hsuits hrest hcycles⟩

end Pass

end ReactiveForm
