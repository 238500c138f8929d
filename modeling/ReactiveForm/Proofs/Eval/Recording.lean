import Mathlib.Data.List.Induction
import ReactiveForm.Proofs.Eval.Steady

/-!
# Computations that do nothing with the log but add to it

Such a computation comes down to a list of nodes that it reads and a result, and neither depends on
what has been read before. The log keeps each node at its first place in the list of all reads, so
whatever is read in the course of a computation stands in the log at its end, in that order.
-/

set_option autoImplicit false

namespace ReactiveForm

namespace Reads

variable {N : Type} [DecidableEq N]

/-- The nodes of one log stand at the front of the other. -/
def Starts (r r' : Reads N) : Prop := r.nodes <+: r'.nodes

theorem recordAll_append (r : Reads N) (xs ys : List N) :
    r.recordAll (xs ++ ys) = (r.recordAll xs).recordAll ys :=
  List.foldl_append

theorem mem_nodes_recordAll (r : Reads N) (xs : List N) (x : N) :
    x ∈ r.nodes ++ xs.eraseDups.filter (· ∉ r.nodes) ↔ x ∈ r.nodes ∨ x ∈ xs := by
  by_cases hx : x ∈ r.nodes <;> simp [hx]

/-- What is new is added in the order in which it is read. -/
theorem nodes_recordAll (r : Reads N) (xs : List N) :
    (r.recordAll xs).nodes = r.nodes ++ xs.eraseDups.filter (· ∉ r.nodes) := by
  -- the last read is new unless it is in the log already or among the reads before it
  induction xs using List.reverseRecOn with
  | nil => simp [recordAll]
  | append_singleton xs x ih =>
    have hlast : r.recordAll (xs ++ [x]) = (r.recordAll xs).record x := r.recordAll_append xs [x]
    have hone : [x].eraseDups = [x] := by
      rw [List.eraseDups_cons, List.filter_nil, List.eraseDups_nil]
    rw [hlast, record, ih, List.eraseDups_append, List.filter_append, ← List.append_assoc]
    simp only [mem_nodes_recordAll]
    by_cases hseen : x ∈ r.nodes <;> by_cases hx : x ∈ xs <;>
      simp [hseen, hx, List.removeAll, ih, hone]

theorem nodes_recordAll_empty (xs : List N) : (recordAll empty xs).nodes = xs.eraseDups := by
  rw [nodes_recordAll]
  simp [empty]

theorem starts_recordAll (r : Reads N) (xs : List N) : r.Starts (r.recordAll xs) :=
  ⟨_, (r.nodes_recordAll xs).symm⟩

theorem nodup_recordAll {r : Reads N} (h : r.nodes.Nodup) (xs : List N) :
    (r.recordAll xs).nodes.Nodup := by
  induction xs generalizing r with
  | nil => exact h
  | cons x xs ih =>
    have hstep : r.recordAll (x :: xs) = (r.record x).recordAll xs := rfl
    rw [hstep]
    refine ih ?_
    unfold record
    split
    next => exact h
    next hx => exact List.nodup_append.mpr ⟨h, by simp, by grind⟩

end Reads

namespace Reading

variable {N α β : Type} [DecidableEq N] {m : Reading N α} {f : α → Reading N β}

/-- The computation comes down to reading some nodes and giving a result. -/
def Recording (m : Reading N α) : Prop :=
  ∃ xs out, m = do
    note xs
    ofExcept out

theorem run_note_ofExcept (xs : List N) (out : Except EvalError α) (s : Log N) :
    (do note xs; ofExcept out : Reading N α).run s = (out, s.map (·.recordAll xs)) := by
  cases out <;> rfl

theorem recording_iff :
    Recording m ↔ ∃ xs out, ∀ s, m.run s = (out, s.map (·.recordAll xs)) := by
  refine exists_congr fun xs => exists_congr fun out => ?_
  constructor
  · rintro rfl s
    exact run_note_ofExcept xs out s
  · intro h
    funext s
    exact (h s).trans (run_note_ofExcept xs out s).symm

theorem inherited_recording : Inherited (N := N) fun _ m => Recording m where
  pure a := recording_iff.mpr ⟨[], .ok a, fun s => by cases s <;> rfl⟩
  fail e := recording_iff.mpr ⟨[], .error e, fun s => by cases s <;> rfl⟩
  note xs := recording_iff.mpr ⟨xs, .ok (), fun s => by cases s <;> rfl⟩
  bind {α β m f} hm hf := by
    obtain ⟨xs, out, hrun⟩ := recording_iff.mp hm
    cases out with
    | error e => exact recording_iff.mpr ⟨xs, .error e, fun s => run_bind_error (hrun s)⟩
    | ok a =>
      have hvalue : m.value = .ok a := congrArg Prod.fst (hrun none)
      obtain ⟨ys, out, hrest⟩ := recording_iff.mp (hf a hvalue)
      refine recording_iff.mpr ⟨xs ++ ys, out, fun s => ?_⟩
      rw [run_bind_ok (hrun s), hrest]
      cases s with
      | none => rfl
      | some r => simp [Reads.recordAll_append]

/-! ## The log of a run -/

/-- The log at the end of a run. -/
def logged (m : Reading N α) (r : Reads N) : Reads N := (m.run (some r)).2.getD .empty

/-- A run that begins with the one log gives this value and ends with the other log. -/
def Runs (m : Reading N α) (r : Reads N) (a : α) (r' : Reads N) : Prop :=
  m.run (some r) = (.ok a, some r')

namespace Recording

theorem steady (h : Recording m) : Steady m := by
  obtain ⟨xs, out, hrun⟩ := recording_iff.mp h
  exact ⟨out, fun s => congrArg Prod.fst (hrun s), fun _ _ => trivial⟩

theorem starts (h : Recording m) (r : Reads N) : r.Starts (m.logged r) := by
  obtain ⟨xs, out, hrun⟩ := recording_iff.mp h
  unfold logged
  rw [hrun]
  exact r.starts_recordAll xs

theorem run_some (h : Recording m) (r : Reads N) :
    m.run (some r) = (m.value, some (m.logged r)) := by
  obtain ⟨xs, out, hrun⟩ := recording_iff.mp h
  unfold value logged
  rw [hrun, hrun]
  rfl

theorem runs (h : Recording m) {a : α} (ha : m.value = .ok a) (r : Reads N) :
    Runs m r a (m.logged r) := by
  rw [Runs, h.run_some, ha]

/-- After a failure nothing more is read. -/
theorem logged_bind (h : Recording m) {e : EvalError} (he : m.value = .error e) (r : Reads N) :
    (m >>= f).logged r = m.logged r := by
  have hrun := h.run_some r
  rw [he] at hrun
  rw [logged, run_bind_error hrun]
  rfl

/-- A run adds to a log what it would read with an empty one, but for the nodes that are in the log
already. -/
theorem nodes_logged (h : Recording m) (r : Reads N) :
    (m.logged r).nodes = r.nodes ++ (m.logged .empty).nodes.filter (· ∉ r.nodes) := by
  obtain ⟨xs, out, hrun⟩ := recording_iff.mp h
  unfold logged
  rw [hrun, hrun]
  exact (r.nodes_recordAll xs).trans (by rw [← Reads.nodes_recordAll_empty]; rfl)

end Recording

namespace Runs

variable {r r' : Reads N} {a : α}

omit [DecidableEq N] in
theorem logged_eq (h : Runs m r a r') : m.logged r = r' := by
  unfold logged
  rw [h]
  rfl

theorem value_eq (h : Runs m r a r') (hm : Recording m) : m.value = .ok a := by
  have hrun := hm.run_some r
  rw [h] at hrun
  exact (congrArg Prod.fst hrun).symm

theorem starts (h : Runs m r a r') (hm : Recording m) : r.Starts r' := by
  rw [← h.logged_eq]
  exact hm.starts r

omit [DecidableEq N] in
theorem logged_bind (h : Runs m r a r') : (m >>= f).logged r = (f a).logged r' := by
  unfold logged
  rw [run_bind_ok h]

omit [DecidableEq N] in
theorem map {g : α → β} (h : Runs m r a r') : Runs (do pure (g (← m))) r (g a) r' :=
  run_bind_ok h

end Runs

theorem runs_bind {r r' : Reads N} {b : β} (hm : Recording m) (h : Runs (m >>= f) r b r') :
    ∃ a r₁, Runs m r a r₁ ∧ Runs (f a) r₁ b r' := by
  unfold Runs at h
  cases hvalue : m.value with
  | error e =>
    have hrun := hm.run_some r
    rw [hvalue] at hrun
    rw [run_bind_error hrun] at h
    exact nomatch h
  | ok a =>
    have hruns := hm.runs hvalue r
    rw [run_bind_ok hruns] at h
    exact ⟨a, _, hruns, h⟩

/-! ## The course of a computation -/

/-- Whatever is in the log when `k` is begun, and then when `k` is done, is in the log at the end of
`m`, in the same places. -/
structure Inside (k : Reading N β) (r' : Reads N) (m : Reading N α) (r : Reads N) : Prop where
  before : r.Starts r'
  after : (k.logged r').Starts (m.logged r)

namespace Inside

variable {γ : Type} {k : Reading N γ} {l : Reading N β} {r r₁ r₂ : Reads N}

omit [DecidableEq N] in
theorem refl (m : Reading N α) (r : Reads N) : Inside m r m r :=
  ⟨List.prefix_rfl, List.prefix_rfl⟩

omit [DecidableEq N] in
theorem trans (h : Inside k r₂ l r₁) (h' : Inside l r₁ m r) : Inside k r₂ m r :=
  ⟨h'.before.trans h.before, h.after.trans h'.after⟩

theorem first (hm : Recording m) (hf : ∀ a, Recording (f a)) : Inside m r (m >>= f) r := by
  refine ⟨List.prefix_rfl, ?_⟩
  cases hvalue : m.value with
  | error e =>
    rw [hm.logged_bind hvalue]
    exact List.prefix_rfl
  | ok a =>
    rw [(hm.runs hvalue r).logged_bind]
    exact (hf a).starts _

/-- What belongs to the second part belongs to the whole. -/
theorem rest {a : α} (hm : Recording m) (hruns : Runs m r a r₁) (h : Inside k r₂ (f a) r₁) :
    Inside k r₂ (m >>= f) r := by
  refine ⟨(hruns.starts hm).trans h.before, ?_⟩
  rw [hruns.logged_bind]
  exact h.after

theorem bind (h : Inside k r₁ m r) (hm : Recording m) (hf : ∀ a, Recording (f a)) :
    Inside k r₁ (m >>= f) r :=
  h.trans (first hm hf)

section

variable {δ : Type} {m' : Reading N β} (combine : α → β → δ) (hm : Recording m)
  (hm' : Recording m')

include hm hm'

theorem head : Inside m r (do let a ← m; let b ← m'; pure (combine a b)) r :=
  first hm fun _ => inherited_recording.after hm' fun _ => inherited_recording.pure _

theorem tail {a : α} (hruns : Runs m r a r₁) (h : Inside k r₂ m' r₁) :
    Inside k r₂ (do let a ← m; let b ← m'; pure (combine a b)) r :=
  rest hm hruns (h.bind hm' fun _ => inherited_recording.pure _)

end

end Inside

/-- All that the computation finds has been read when it is done. -/
def Finds (m : Reading N (List N)) : Prop := ∀ r xs r', m.Runs r xs r' → xs ⊆ r'.nodes

theorem Finds.note (xs : List N) : Finds (do note xs; pure xs) := by
  rintro r _ _ ⟨⟩
  intro x hx
  exact (r.mem_recordAll xs x).mpr (.inr hx)

theorem Finds.bind {f : α → Reading N (List N)} (hm : Recording m) (hf : ∀ a, Finds (f a)) :
    Finds (m >>= f) := by
  intro r xs r' h
  obtain ⟨a, r₁, _, hrest⟩ := runs_bind hm h
  exact hf a r₁ xs r' hrest

/-- When the elements of a list are gone through one after the other, an element's turn comes with
this log. -/
inductive Turn (f : α → Reading N β) : List α → Reads N → α → Reads N → Prop where
  | here {x : α} {xs : List α} {r : Reads N} : Turn f (x :: xs) r x r
  | later {x y : α} {xs : List α} {r r₁ r' : Reads N} {b : β} :
    (f x).Runs r b r₁ → Turn f xs r₁ y r' → Turn f (x :: xs) r y r'

end Reading

end ReactiveForm
