import Mathlib.Tactic.Common
import ReactiveForm.Proofs.Document.Order
import ReactiveForm.Schedule.Basic

/-!
# Marks and readers

The marked outputs stand in the order of outputs, each once. The readers of a node are entered when
an output has been computed, and an entry stays until the output is computed again.
-/

set_option autoImplicit false

namespace ReactiveForm

theorem OutputKind.rank_inj {a b : OutputKind} (h : a.rank = b.rank) : a = b := by
  rcases a with (_ | _ | _ | _ | _) | _ <;> rcases b with (_ | _ | _ | _ | _) | _ <;>
    first | rfl | exact absurd h (by decide)

instance : Std.TransOrd NodeId :=
  inferInstanceAs (Std.TransCmp (compareLex (compareOn NodeId.index) (compareOn NodeId.generation)))

instance : Std.LawfulEqOrd NodeId where
  eq_of_compare {a b} h := by
    obtain ⟨hindex, hgeneration⟩ := Ordering.then_eq_eq.mp h
    cases a
    cases b
    simp_all

instance : Std.TransOrd Output :=
  inferInstanceAs (Std.TransCmp (compareLex (compareOn Output.node) (compareOn fun o => o.kind.rank)))

instance : Std.LawfulEqOrd Output where
  eq_of_compare {a b} h := by
    obtain ⟨hnode, hrank⟩ := Ordering.then_eq_eq.mp h
    have hnode := Std.LawfulEqOrd.eq_of_compare hnode
    have hkind := OutputKind.rank_inj (Nat.compare_eq_eq.mp hrank)
    cases a
    cases b
    simp_all

namespace OutputSet

variable {o p : Output} {s : OutputSet}

theorem mem_insert : p ∈ s.insert o ↔ p = o ∨ p ∈ s := by
  induction s with
  | nil => simp [insert]
  | cons q s ih =>
    rw [insert]
    split
    next => exact List.mem_cons
    next heq =>
      obtain rfl := Std.LawfulEqOrd.eq_of_compare heq
      simp
    next =>
      rw [List.mem_cons, ih, List.mem_cons]
      tauto

theorem ascends_insert (h : Ascends compare s) : Ascends compare (s.insert o) := by
  induction s with
  | nil => exact List.pairwise_singleton _ o
  | cons q s ih =>
    obtain ⟨hq, hs⟩ := List.pairwise_cons.mp h
    rw [insert]
    split
    next hlt =>
      refine List.pairwise_cons.mpr ⟨?_, h⟩
      intro p hp
      rcases List.mem_cons.mp hp with rfl | hp
      · exact hlt
      · exact Std.TransCmp.lt_trans hlt (hq p hp)
    next => exact h
    next hgt =>
      refine List.pairwise_cons.mpr ⟨?_, ih hs⟩
      intro p hp
      rcases mem_insert.mp hp with rfl | hp
      · exact Std.OrientedCmp.lt_of_gt hgt
      · exact hq p hp

theorem nodup_of_ascends (h : Ascends compare s) : s.Nodup := by
  refine h.imp fun {p q} hlt heq => ?_
  rw [heq, Std.ReflOrd.compare_self] at hlt
  exact nomatch hlt

end OutputSet

namespace Schedule

variable {s : Schedule} {o q : Output} {x : NodeId}

/-! ## Marks -/

@[simp] theorem reads_mark (outputs : List Output) : (s.mark outputs).reads = s.reads := rfl

@[simp] theorem mark_mark (xs ys : List Output) : (s.mark xs).mark ys = s.mark (xs ++ ys) := by
  simp only [mark, List.foldl_append]

theorem mem_mark {outputs : List Output} :
    q ∈ (s.mark outputs).dirty ↔ q ∈ s.dirty ∨ q ∈ outputs := by
  have hfold (dirty : OutputSet) :
      q ∈ outputs.foldl (fun dirty o => OutputSet.insert o dirty) dirty ↔ q ∈ dirty ∨ q ∈ outputs := by
    induction outputs generalizing dirty with
    | nil => simp
    | cons o outputs ih =>
      rw [List.foldl_cons, ih, OutputSet.mem_insert, List.mem_cons]
      tauto
  exact hfold s.dirty

theorem ascends_mark (h : Ascends compare s.dirty) (outputs : List Output) :
    Ascends compare (s.mark outputs).dirty := by
  have hfold (dirty : OutputSet) (h : Ascends compare dirty) :
      Ascends compare (outputs.foldl (fun dirty o => OutputSet.insert o dirty) dirty) := by
    induction outputs generalizing dirty with
    | nil => exact h
    | cons o outputs ih => exact ih _ (OutputSet.ascends_insert h)
  exact hfold s.dirty h

theorem mem_unmark : q ∈ (s.unmark o).dirty ↔ q ∈ s.dirty ∧ q ≠ o := by
  simp [unmark]

theorem ascends_unmark (h : Ascends compare s.dirty) : Ascends compare (s.unmark o).dirty :=
  h.filter _

/-! ## Readers -/

/-- The output stands in an entry for the node. -/
def Enters (s : Schedule) (x : NodeId) (q : Output) : Prop :=
  ∃ outputs, (x, outputs) ∈ s.readers ∧ q ∈ outputs

@[simp] theorem readersOf_mark (outputs : List Output) :
    (s.mark outputs).readersOf x = s.readersOf x := rfl

theorem mem_of_get? {κ ν : Type} [DecidableEq κ] {t : Table κ ν} {k : κ} {v : ν}
    (h : t.get? k = some v) : (k, v) ∈ t := by
  obtain ⟨⟨l, w⟩, hp, rfl⟩ := Option.map_eq_some_iff.mp h
  have hl := List.find?_some hp
  obtain rfl : l = k := by simpa using hl
  exact List.mem_of_find?_eq_some hp

theorem enters_of_mem_readersOf (h : q ∈ s.readersOf x) : s.Enters x q := by
  unfold readersOf at h
  cases hx : s.readers.get? x with
  | none => simp [hx] at h
  | some outputs => exact ⟨outputs, mem_of_get? hx, by simpa [hx] using h⟩

theorem mem_withdraw {gone : Output → Bool} {readers : Table NodeId (List Output)}
    {outputs : List Output} (h : (x, outputs) ∈ withdraw gone readers) (hq : q ∈ outputs) :
    gone q = false ∧ ∃ before, (x, before) ∈ readers ∧ q ∈ before := by
  obtain ⟨⟨y, before⟩, hmem, heq⟩ := List.mem_filterMap.mp h
  simp only at heq
  split at heq
  · exact nomatch heq
  · obtain ⟨rfl, rfl⟩ := Prod.mk.inj (Option.some.inj heq)
    obtain ⟨hq, hgone⟩ := List.mem_filter.mp hq
    exact ⟨by simpa using hgone, before, hmem, hq⟩

/-- An output that is not withdrawn keeps its entry. -/
theorem mem_get?_withdraw {gone : Output → Bool} {readers : Table NodeId (List Output)}
    (hq : q ∈ (readers.get? x).getD []) (hgone : gone q = false) :
    q ∈ ((withdraw gone readers).get? x).getD [] := by
  -- the induction is on the entries: the first one for `x` decides, and it is not dropped, as `q`
  -- stays in it
  induction readers with
  | nil => exact hq
  | cons entry readers ih =>
    obtain ⟨y, outputs⟩ := entry
    rw [Table.get?_cons] at hq
    by_cases hy : y = x
    · subst hy
      rw [if_pos rfl, Option.getD_some] at hq
      have hkept : q ∈ outputs.filter fun o => !gone o := by simp [hq, hgone]
      have hsome : (outputs.filter fun o => !gone o).isEmpty = false :=
        List.isEmpty_eq_false_iff.mpr (List.ne_nil_of_mem hkept)
      have hhead : withdraw gone ((y, outputs) :: readers)
          = (y, outputs.filter fun o => !gone o) :: withdraw gone readers := by
        simp only [withdraw, List.filterMap_cons, hsome, Bool.false_eq_true, if_false]
      rwa [hhead, Table.get?_cons, if_pos rfl, Option.getD_some]
    · rw [if_neg hy] at hq
      have hrest := ih hq
      unfold withdraw at hrest ⊢
      rw [List.filterMap_cons]
      split
      · exact hrest
      next entry heq =>
        have hkey : entry.1 = y := by
          simp only at heq
          split at heq
          · cases heq
          · rw [← Option.some.inj heq]
        rwa [Table.get?_cons, hkey, if_neg hy]

theorem mem_get?_enroll {readers : Table NodeId (List Output)} {id : NodeId} :
    q ∈ ((enroll o readers id).get? x).getD []
      ↔ q ∈ (readers.get? x).getD [] ∨ q = o ∧ x = id := by
  simp only [enroll]
  split
  next hmem =>
    constructor
    · exact .inl
    · rintro (hq | ⟨rfl, rfl⟩)
      · exact hq
      · exact hmem
  next =>
    rw [Table.get?_set]
    by_cases hx : id = x
    · subst hx
      simp [or_comm]
    · simp [hx, Ne.symm hx]

theorem mem_get?_foldl_enroll (nodes : List NodeId) {readers : Table NodeId (List Output)} :
    q ∈ ((nodes.foldl (enroll o) readers).get? x).getD []
      ↔ q ∈ (readers.get? x).getD [] ∨ q = o ∧ x ∈ nodes := by
  induction nodes generalizing readers with
  | nil => simp
  | cons id nodes ih =>
    rw [List.foldl_cons, ih, mem_get?_enroll, List.mem_cons]
    tauto

theorem mem_enroll {readers : Table NodeId (List Output)} {id : NodeId} {outputs : List Output}
    (h : (x, outputs) ∈ enroll o readers id) (hq : q ∈ outputs) :
    q = o ∧ x = id ∨ ∃ before, (x, before) ∈ readers ∧ q ∈ before := by
  simp only [enroll] at h
  split at h
  · exact .inr ⟨outputs, h, hq⟩
  · rcases List.mem_cons.mp h with heq | h
    · obtain ⟨rfl, rfl⟩ := Prod.mk.inj heq
      rcases List.mem_cons.mp hq with rfl | hq
      · exact .inl ⟨rfl, rfl⟩
      · cases hx : readers.get? x with
        | none => simp [hx] at hq
        | some before => exact .inr ⟨before, mem_of_get? hx, by simpa [hx] using hq⟩
    · exact .inr ⟨outputs, (List.mem_filter.mp h).1, hq⟩

theorem mem_foldl_enroll {nodes : List NodeId} {readers : Table NodeId (List Output)}
    {outputs : List Output} (h : (x, outputs) ∈ nodes.foldl (enroll o) readers)
    (hq : q ∈ outputs) :
    q = o ∧ x ∈ nodes ∨ ∃ before, (x, before) ∈ readers ∧ q ∈ before := by
  induction nodes generalizing readers with
  | nil => exact .inr ⟨outputs, h, hq⟩
  | cons id nodes ih =>
    rcases ih h with ⟨rfl, hx⟩ | ⟨before, hbefore, hq⟩
    · exact .inl ⟨rfl, List.mem_cons_of_mem id hx⟩
    · rcases mem_enroll hbefore hq with ⟨rfl, rfl⟩ | hrest
      · exact .inl ⟨rfl, List.mem_cons_self⟩
      · exact .inr hrest

/-! ## Representation -/

/-- The marked outputs ascend, and no node has two entries. -/
structure Regular (s : Schedule) : Prop where
  ordered : Ascends compare s.dirty
  distinct : (s.readers.map (·.1)).Nodup

theorem get?_of_mem {κ ν : Type} [DecidableEq κ] {t : Table κ ν} (h : (t.map (·.1)).Nodup) {k : κ}
    {v : ν} (hmem : (k, v) ∈ t) : t.get? k = some v := by
  induction t with
  | nil => exact nomatch hmem
  | cons entry t ih =>
    obtain ⟨l, w⟩ := entry
    obtain ⟨hl, ht⟩ := List.nodup_cons.mp h
    rw [Table.get?_cons]
    rcases List.mem_cons.mp hmem with heq | hmem
    · obtain ⟨rfl, rfl⟩ := Prod.mk.inj heq
      exact if_pos rfl
    · rw [if_neg, ih ht hmem]
      rintro rfl
      exact hl (List.mem_map.mpr ⟨_, hmem, rfl⟩)

theorem Regular.mem_readersOf_iff (h : s.Regular) : q ∈ s.readersOf x ↔ s.Enters x q := by
  refine ⟨enters_of_mem_readersOf, ?_⟩
  rintro ⟨outputs, hmem, hq⟩
  rw [readersOf, get?_of_mem h.distinct hmem]
  exact hq

theorem distinct_withdraw {gone : Output → Bool} {readers : Table NodeId (List Output)}
    (h : (readers.map (·.1)).Nodup) : ((withdraw gone readers).map (·.1)).Nodup := by
  have hsub : ((withdraw gone readers).map (·.1)).Sublist (readers.map (·.1)) := by
    unfold withdraw
    clear h
    induction readers with
    | nil => exact .slnil
    | cons entry readers ih =>
      rw [List.filterMap_cons]
      split
      next => exact ih.cons _
      next kept heq =>
        have hkey : kept.1 = entry.1 := by
          simp only at heq
          split at heq
          · cases heq
          · rw [← Option.some.inj heq]
        rw [List.map_cons, List.map_cons, hkey]
        exact ih.cons_cons _
  exact hsub.nodup h

theorem distinct_set {κ ν : Type} [DecidableEq κ] {t : Table κ ν} (h : (t.map (·.1)).Nodup) (k : κ)
    (v : ν) : ((t.set k v).map (·.1)).Nodup := by
  refine List.nodup_cons.mpr ⟨?_, (List.filter_sublist.map _).nodup h⟩
  intro hk
  obtain ⟨entry, hentry, hkey⟩ := List.mem_map.mp hk
  have hdrop := (List.mem_filter.mp hentry).2
  simp [hkey] at hdrop

theorem distinct_foldl_enroll {nodes : List NodeId} {readers : Table NodeId (List Output)}
    (h : (readers.map (·.1)).Nodup) : ((nodes.foldl (enroll o) readers).map (·.1)).Nodup := by
  induction nodes generalizing readers with
  | nil => exact h
  | cons id nodes ih =>
    apply ih
    simp only [enroll]
    split
    · exact h
    · exact distinct_set h id _

theorem Regular.mark (h : s.Regular) (outputs : List Output) : (s.mark outputs).Regular :=
  ⟨ascends_mark h.ordered outputs, h.distinct⟩

theorem Regular.unmark (h : s.Regular) (o : Output) : (s.unmark o).Regular :=
  ⟨ascends_unmark h.ordered, h.distinct⟩

theorem Regular.setReads (h : s.Regular) (o : Output) (nodes : List NodeId) :
    (s.setReads o nodes).Regular :=
  ⟨h.ordered, distinct_foldl_enroll (distinct_withdraw h.distinct)⟩

/-! ## Removal -/

theorem mem_forget {removed : List NodeId} :
    q ∈ (s.forget removed).dirty ↔ q ∈ s.dirty ∧ q.node ∉ removed := by
  simp [forget]

theorem ascends_forget (h : Ascends compare s.dirty) (removed : List NodeId) :
    Ascends compare (s.forget removed).dirty :=
  h.filter _

theorem enters_forget {removed : List NodeId} (h : (s.forget removed).Enters x q) :
    q.node ∉ removed ∧ s.Enters x q := by
  obtain ⟨outputs, hmem, hq⟩ := h
  obtain ⟨hgone, hrest⟩ := mem_withdraw (List.mem_filter.mp hmem).1 hq
  exact ⟨by simpa using hgone, hrest⟩

theorem get?_reads_forget {removed : List NodeId} {nodes : List NodeId}
    (h : (s.forget removed).reads.get? q = some nodes) :
    q.node ∉ removed ∧ s.reads.get? q = some nodes := by
  have h : (Table.without s.reads (·.node ∈ removed)).get? q = some nodes := h
  rw [Table.get?_without] at h
  split at h
  next => cases h
  next hnot => exact ⟨by simpa using hnot, h⟩

/-! ## Reads -/

theorem get?_reads_setReads (nodes : List NodeId) :
    (s.setReads o nodes).reads.get? q = if o = q then some nodes else s.reads.get? q :=
  Table.get?_set _ o q nodes

theorem mem_readersOf_setReads {nodes : List NodeId} (hq : q ∈ s.readersOf x) (hne : q ≠ o) :
    q ∈ (s.setReads o nodes).readersOf x := by
  refine (mem_get?_foldl_enroll nodes).mpr (.inl (mem_get?_withdraw hq ?_))
  simpa using hne

theorem self_mem_readersOf_setReads {nodes : List NodeId} (hx : x ∈ nodes) :
    o ∈ (s.setReads o nodes).readersOf x :=
  (mem_get?_foldl_enroll nodes).mpr (.inr ⟨rfl, hx⟩)

theorem enters_setReads {nodes : List NodeId} (h : (s.setReads o nodes).Enters x q) :
    q = o ∧ x ∈ nodes ∨ q ≠ o ∧ s.Enters x q := by
  obtain ⟨outputs, hmem, hq⟩ := h
  rcases mem_foldl_enroll hmem hq with hself | ⟨before, hbefore, hq⟩
  · exact .inl hself
  · obtain ⟨hgone, hrest⟩ := mem_withdraw hbefore hq
    exact .inr ⟨by simpa using hgone, hrest⟩

/-! ## Entries and reads -/

/-- Whoever is entered for a node is known to have read it. -/
def Backed (s : Schedule) : Prop :=
  ∀ x q, s.Enters x q → ∃ nodes, s.reads.get? q = some nodes ∧ x ∈ nodes

theorem Backed.setReads (h : s.Backed) (o : Output) (nodes : List NodeId) :
    (s.setReads o nodes).Backed := by
  intro x q hq
  rw [get?_reads_setReads]
  rcases enters_setReads hq with ⟨rfl, hx⟩ | ⟨hne, hq⟩
  · exact ⟨nodes, if_pos rfl, hx⟩
  · rw [if_neg (Ne.symm hne)]
    exact h x q hq

theorem Backed.forget (h : s.Backed) (removed : List NodeId) : (s.forget removed).Backed := by
  intro x q hq
  obtain ⟨hkept, hq⟩ := enters_forget hq
  obtain ⟨nodes, hnodes, hx⟩ := h x q hq
  refine ⟨nodes, ?_, hx⟩
  have hreads : (s.forget removed).reads.get? q
      = if decide (q.node ∈ removed) then none else s.reads.get? q :=
    Table.get?_without s.reads (·.node ∈ removed) q
  rw [hreads, if_neg (by simpa using hkept), hnodes]

end Schedule

end ReactiveForm
