import ReactiveForm.Function.Basic

/-!
# Two runs of a computation that reads nodes

`Echoes A H m m' P` compares two computations by what the first one reads. Reads are only ever
added to the log. Where `H` holds and every node in the log of the first run has `A`, the second
run gives the same result and the same log, and a value among the results has `P`. There is a rule
for each way in which such computations are put together.
-/

set_option autoImplicit false

namespace ReactiveForm

namespace Reads

variable {N : Type} [DecidableEq N]

theorem mem_record (r : Reads N) (x y : N) : y ∈ (r.record x).nodes ↔ y ∈ r.nodes ∨ y = x := by
  unfold record
  split
  next hx =>
    constructor
    · exact .inl
    · rintro (hy | rfl)
      · exact hy
      · exact hx
  next => simp

theorem mem_recordAll (r : Reads N) (xs : List N) (y : N) :
    y ∈ (r.recordAll xs).nodes ↔ y ∈ r.nodes ∨ y ∈ xs := by
  induction xs generalizing r with
  | nil => simp [recordAll]
  | cons x xs ih =>
    have hstep := ih (r.record x)
    rw [recordAll] at hstep ⊢
    rw [List.foldl_cons, hstep, mem_record, List.mem_cons, or_assoc]

end Reads

namespace Reading

variable {N α β : Type}

theorem run_bind_ok {m : Reading N α} {f : α → Reading N β} {s s' : Log N} {a : α}
    (h : m.run s = (.ok a, s')) : (m >>= f).run s = (f a).run s' := by
  have hbind : (m >>= f).run s = ExceptT.bindCont f (m.run s).1 (m.run s).2 := rfl
  rw [hbind, h]
  rfl

theorem run_bind_error {m : Reading N α} {f : α → Reading N β} {s s' : Log N} {e : EvalError}
    (h : m.run s = (.error e, s')) : (m >>= f).run s = (.error e, s') := by
  have hbind : (m >>= f).run s = ExceptT.bindCont f (m.run s).1 (m.run s).2 := rfl
  rw [hbind, h]
  rfl

/-- What a run leads to, it leads to by way of a result. -/
theorem ok_of_run_bind {m : Reading N α} {f : α → Reading N β} {s : Log N} {b : β}
    (h : ((m >>= f).run s).1 = .ok b) : ∃ a s', ((f a).run s').1 = .ok b := by
  cases hrun : m.run s with
  | mk out s' =>
    cases out with
    | error e =>
      rw [run_bind_error hrun] at h
      exact nomatch h
    | ok a =>
      rw [run_bind_ok hrun] at h
      exact ⟨a, s', h⟩

/-- Where `H` holds and the first run reads nothing but nodes with `A`, the second run does the
same. -/
def Echoes (A : N → Prop) (H : Prop) (m m' : Reading N α) (P : α → Prop) : Prop :=
  ∀ r : Reads N, ∃ out r', m.run (some r) = (out, some r') ∧ r.nodes ⊆ r'.nodes ∧
    (H → (∀ x ∈ r'.nodes, A x) →
      m'.run (some r) = (out, some r') ∧ ∀ a, out = .ok a → P a)

namespace Echoes

variable {A : N → Prop} {H : Prop} {m m' : Reading N α} {P : α → Prop}

theorem pure {a a' : α} (h : H → a' = a ∧ P a) :
    Echoes A H (Pure.pure a) (Pure.pure a') P := by
  intro r
  refine ⟨.ok a, r, rfl, fun _ hx => hx, ?_⟩
  intro hH _
  obtain ⟨rfl, hP⟩ := h hH
  refine ⟨rfl, ?_⟩
  rintro b ⟨⟩
  exact hP

theorem fail (e : EvalError) : Echoes A H (Reading.fail e) (Reading.fail e) P := by
  intro r
  refine ⟨.error e, r, rfl, fun _ hx => hx, ?_⟩
  intro _ _
  exact ⟨rfl, fun _ h => nomatch h⟩

theorem ofExcept {v v' : Except EvalError α} (h : H → v' = v ∧ ∀ a, v = .ok a → P a) :
    Echoes A H (Reading.ofExcept v) (Reading.ofExcept v') P := by
  intro r
  refine ⟨v, r, ?_, fun _ hx => hx, ?_⟩
  · cases v <;> rfl
  · intro hH _
    obtain ⟨rfl, hP⟩ := h hH
    refine ⟨?_, hP⟩
    cases v' <;> rfl

/-- What has been read can be relied on. -/
theorem note [DecidableEq N] {xs xs' : List N} (h : H → xs' = xs) :
    Echoes A H (Reading.note xs) (Reading.note xs') fun _ => ∀ x ∈ xs, A x := by
  intro r
  refine ⟨.ok (), r.recordAll xs, rfl, ?_, ?_⟩
  · intro x hx
    exact (r.mem_recordAll xs x).mpr (.inl hx)
  · intro hH hA
    obtain rfl := h hH
    refine ⟨rfl, ?_⟩
    intro _ _ x hx
    exact hA x ((r.mem_recordAll _ x).mpr (.inr hx))

/-- The second part need be looked at only for those results that the first run can give. -/
theorem bind_of {f f' : α → Reading N β} {Q : β → Prop} {R : α → Prop} (hm : Echoes A H m m' P)
    (hR : ∀ r a s, m.run (some r) = (.ok a, s) → R a)
    (hf : ∀ a, R a → Echoes A (H ∧ P a) (f a) (f' a) Q) :
    Echoes A H (m >>= f) (m' >>= f') Q := by
  intro r
  obtain ⟨out, r₁, hrun, hgrow, hsame⟩ := hm r
  cases out with
  | error e =>
    refine ⟨.error e, r₁, run_bind_error hrun, hgrow, ?_⟩
    intro hH hA
    exact ⟨run_bind_error (hsame hH hA).1, fun _ h => nomatch h⟩
  | ok a =>
    obtain ⟨out, r₂, hrun', hgrow', hsame'⟩ := hf a (hR r a _ hrun) r₁
    refine ⟨out, r₂, (run_bind_ok hrun).trans hrun', fun _ hx => hgrow' (hgrow hx), ?_⟩
    intro hH hA
    -- what the first part has read is still in the log at the end
    obtain ⟨hfirst, hP⟩ := hsame hH fun x hx => hA x (hgrow' hx)
    obtain ⟨hrest, hQ⟩ := hsame' ⟨hH, hP a rfl⟩ hA
    exact ⟨(run_bind_ok hfirst).trans hrest, hQ⟩

theorem bind {f f' : α → Reading N β} {Q : β → Prop} (hm : Echoes A H m m' P)
    (hf : ∀ a, Echoes A (H ∧ P a) (f a) (f' a) Q) :
    Echoes A H (m >>= f) (m' >>= f') Q :=
  hm.bind_of (R := fun _ => True) (fun _ _ _ _ => trivial) fun a _ => hf a

theorem imp {H' : Prop} {Q : α → Prop} (hm : Echoes A H m m' P) (hH : H' → H)
    (hP : H' → ∀ a, P a → Q a) : Echoes A H' m m' Q := by
  intro r
  obtain ⟨out, r', hrun, hgrow, hsame⟩ := hm r
  refine ⟨out, r', hrun, hgrow, ?_⟩
  intro h hA
  obtain ⟨hrun', hQ⟩ := hsame (hH h) hA
  exact ⟨hrun', fun a ha => hP h a (hQ a ha)⟩

theorem given {H' : Prop} (hm : Echoes A H m m' P) (hH : H' → H) : Echoes A H' m m' P :=
  hm.imp hH fun _ _ hP => hP

theorem mapM {f f' : α → Reading N β} {Q : β → Prop} (xs : List α)
    (hf : ∀ x ∈ xs, Echoes A H (f x) (f' x) Q) :
    Echoes A H (xs.mapM f) (xs.mapM f') fun ys => ∀ y ∈ ys, Q y := by
  induction xs with
  | nil =>
    rw [List.mapM_nil, List.mapM_nil]
    exact .pure fun _ => ⟨rfl, fun _ h => absurd h List.not_mem_nil⟩
  | cons x xs ih =>
    rw [List.mapM_cons, List.mapM_cons]
    refine (hf x List.mem_cons_self).bind fun y => ?_
    have hrest := ih fun z hz => hf z (List.mem_cons_of_mem x hz)
    refine (hrest.imp And.left fun _ _ h => h).bind fun ys => .pure ?_
    rintro ⟨⟨_, hy⟩, hys⟩
    refine ⟨rfl, ?_⟩
    intro z hz
    rcases List.mem_cons.mp hz with rfl | hz
    · exact hy
    · exact hys z hz

end Echoes

end Reading

end ReactiveForm
