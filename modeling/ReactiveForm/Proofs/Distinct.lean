import Mathlib.Data.List.Nodup

/-!
# Each entry once

`eraseDups` keeps of every entry of a list its first place. What is put in front of such a list and
taken out of the rest of it keeps the entries apart, and moves only entries that stood further in
front.
-/

set_option autoImplicit false

namespace ReactiveForm

variable {α : Type} [DecidableEq α]

theorem nodup_eraseDups : ∀ xs : List α, xs.eraseDups.Nodup
  | [] => List.nodup_nil
  | x :: xs => by
    rw [List.eraseDups_cons]
    refine List.nodup_cons.mpr ⟨?_, nodup_eraseDups _⟩
    simp
termination_by xs => xs.length
decreasing_by exact Nat.lt_succ_of_le (List.length_filter_le _ _)

theorem eraseDups_of_nodup {xs : List α} (h : xs.Nodup) : xs.eraseDups = xs := by
  induction xs with
  | nil => rfl
  | cons x xs ih =>
    obtain ⟨hx, hxs⟩ := List.nodup_cons.mp h
    have hothers : xs.filter (fun y => !y == x) = xs :=
      List.filter_eq_self.mpr fun y hy => by simpa using fun heq : y = x => hx (heq ▸ hy)
    rw [List.eraseDups_cons, hothers, ih hxs]

theorem eraseDups_filter (p : α → Bool) : ∀ xs : List α,
    (xs.filter p).eraseDups = xs.eraseDups.filter p
  | [] => by simp
  | x :: xs => by
    have hrest := eraseDups_filter p (xs.filter fun y => !y == x)
    rw [List.eraseDups_cons, List.filter_cons, List.filter_cons, ← hrest, List.filter_filter]
    split
    · rw [List.eraseDups_cons, List.filter_filter]
      simp only [Bool.and_comm]
    next hx =>
      -- the copies of `x` behind it fall away as well
      congr 1
      apply List.filter_congr
      intro y _
      by_cases h : y = x
      · simp [h, hx]
      · simp [h]
termination_by xs => xs.length
decreasing_by exact Nat.lt_succ_of_le (List.length_filter_le _ _)

variable {x : α} {xs : List α}

/-- Taking out an entry that stands further behind does not move those in front. -/
theorem take_filter_of_not_mem {n : Nat} (h : x ∉ xs.take n) :
    (xs.filter (· != x)).take n = xs.take n := by
  induction xs generalizing n with
  | nil => rfl
  | cons y ys ih =>
    cases n with
    | zero => rfl
    | succ n =>
      rw [List.take_succ_cons, List.mem_cons, not_or] at h
      have hne : (y != x) = true := bne_iff_ne.mpr (Ne.symm h.1)
      rw [List.filter_cons, if_pos hne, List.take_succ_cons, List.take_succ_cons, ih h.2]

/-- Taking out one of the first entries leaves room for one more. -/
theorem take_filter_of_mem {n : Nat} (hxs : xs.Nodup) (h : x ∈ xs.take (n + 1)) :
    (xs.filter (· != x)).take n = (xs.take (n + 1)).filter (· != x) := by
  induction xs generalizing n with
  | nil => exact absurd h List.not_mem_nil
  | cons y ys ih =>
    obtain ⟨hy, hys⟩ := List.nodup_cons.mp hxs
    rw [List.take_succ_cons] at h ⊢
    by_cases hyx : y = x
    · subst hyx
      have hall (zs : List α) (hsub : ∀ z ∈ zs, z ∈ ys) : zs.filter (· != y) = zs := by
        apply List.filter_eq_self.mpr
        intro z hz
        exact bne_iff_ne.mpr fun hzy => hy (hzy ▸ hsub z hz)
      rw [List.filter_cons_of_neg (by simp), List.filter_cons_of_neg (by simp),
        hall ys fun _ hz => hz, hall _ fun _ hz => List.mem_of_mem_take hz]
    · have hmem : x ∈ ys.take n := (List.mem_cons.mp h).resolve_left (Ne.symm hyx)
      have hne : (y != x) = true := bne_iff_ne.mpr hyx
      rw [List.filter_cons, if_pos hne, List.filter_cons, if_pos hne]
      cases n with
      | zero => exact absurd hmem List.not_mem_nil
      | succ n => rw [List.take_succ_cons, ih hys hmem]

end ReactiveForm
