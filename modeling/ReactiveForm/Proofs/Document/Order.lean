import ReactiveForm.Document.Basic

/-!
# Node-sets in document order

Sorting by an order that is linear on the nodes at hand, and erasing repetitions afterwards, gives
the one ascending list of these nodes. What a list of nodes holds therefore decides the node-set
that is made of it.
-/

set_option autoImplicit false

namespace ReactiveForm

variable {N : Type}

/-- The order is linear on the nodes of which `S` holds. -/
structure LinearOn (S : N → Prop) (order : N → N → Ordering) : Prop where
  eq_iff : ∀ {x y}, S x → S y → (order x y = .eq ↔ x = y)
  swap : ∀ {x y}, S x → S y → order y x = (order x y).swap
  trans : ∀ {x y z}, S x → S y → S z → order x y = .lt → order y z = .lt → order x z = .lt

namespace LinearOn

variable {S : N → Prop} {order : N → N → Ordering}

/-- An order that compares a rank of the nodes is linear where no two nodes have one rank. -/
theorem of_rank {ρ : Type} [Ord ρ] [Std.TransOrd ρ] [Std.LawfulEqOrd ρ] (rank : N → ρ)
    (hinj : ∀ {x y}, S x → S y → rank x = rank y → x = y)
    (horder : ∀ {x y}, S x → S y → order x y = compare (rank x) (rank y)) :
    LinearOn S order where
  eq_iff := by
    intro x y hx hy
    rw [horder hx hy, Std.LawfulEqCmp.compare_eq_iff_eq]
    constructor
    · exact hinj hx hy
    · intro hxy
      rw [hxy]
  swap := by
    intro x y hx hy
    rw [horder hx hy, horder hy hx]
    exact Std.OrientedCmp.eq_swap
  trans := by
    intro x y z hx hy hz hxy hyz
    rw [horder hx hy] at hxy
    rw [horder hy hz] at hyz
    rw [horder hx hz]
    exact Std.TransCmp.lt_trans hxy hyz

variable (h : LinearOn S order)

include h

theorem irrefl {x : N} (hx : S x) : order x x ≠ .lt := by
  rw [(h.eq_iff hx hx).mpr rfl]
  decide

theorem gt_iff {x y : N} (hx : S x) (hy : S y) : order x y = .gt ↔ order y x = .lt := by
  rw [h.swap hx hy]
  cases order x y <;> decide

theorem lt_or_eq {x y : N} (hx : S x) (hy : S y) (hxy : order y x ≠ .lt) :
    order x y = .lt ∨ x = y := by
  cases hc : order x y with
  | lt => exact .inl rfl
  | eq => exact .inr ((h.eq_iff hx hy).mp hc)
  | gt => exact absurd ((h.gt_iff hx hy).mp hc) hxy

theorem not_lt_of_lt {x y : N} (hx : S x) (hy : S y) (hxy : order x y = .lt) :
    order y x ≠ .lt := by
  intro hyx
  exact h.irrefl hx (h.trans hx hy hx hxy hyx)

theorem not_lt_trans {x y z : N} (hx : S x) (hy : S y) (hz : S z) (hyx : order y x ≠ .lt)
    (hzy : order z y ≠ .lt) : order z x ≠ .lt := by
  rcases h.lt_or_eq hx hy hyx with hxy | rfl
  · rcases h.lt_or_eq hy hz hzy with hyz | rfl
    · exact h.not_lt_of_lt hx hz (h.trans hx hy hz hxy hyz)
    · exact hyx
  · exact hzy

end LinearOn

/-! ## Ascending lists -/

/-- Each node stands before all that follow it in the list. -/
def Ascends (order : N → N → Ordering) (xs : List N) : Prop :=
  xs.Pairwise fun x y => order x y = .lt

section Ascending

variable {S : N → Prop} {order : N → N → Ordering} (h : LinearOn S order)

include h

/-- The first node of an ascending list is the least node in it. -/
theorem Ascends.head_eq {x y : N} {xs ys : List N} (hx : Ascends order (x :: xs))
    (hy : Ascends order (y :: ys)) (hS : S x) (hS' : S y) (hxy : x ∈ y :: ys)
    (hyx : y ∈ x :: xs) : x = y := by
  rcases List.mem_cons.mp hxy with hxy | hxy
  · exact hxy
  · rcases List.mem_cons.mp hyx with hyx | hyx
    · exact hyx.symm
    · have hlt : order y x = .lt := List.rel_of_pairwise_cons hy hxy
      have hgt : order x y = .lt := List.rel_of_pairwise_cons hx hyx
      exact absurd hgt (h.not_lt_of_lt hS' hS hlt)

theorem Ascends.not_mem {x : N} {xs : List N} (hx : Ascends order (x :: xs)) (hS : S x) :
    x ∉ xs := by
  intro hm
  exact h.irrefl hS (List.rel_of_pairwise_cons hx hm)

/-- Ascending lists of the same nodes are equal. -/
theorem Ascends.ext {xs ys : List N} (hx : Ascends order xs) (hy : Ascends order ys)
    (hS : ∀ x ∈ xs, S x) (hm : ∀ x, x ∈ xs ↔ x ∈ ys) : xs = ys := by
  induction xs generalizing ys with
  | nil =>
    cases ys with
    | nil => rfl
    | cons y ys => exact absurd ((hm y).mpr List.mem_cons_self) List.not_mem_nil
  | cons x xs ih =>
    cases ys with
    | nil => exact absurd ((hm x).mp List.mem_cons_self) List.not_mem_nil
    | cons y ys =>
      have hyS : S y := hS y ((hm y).mpr List.mem_cons_self)
      have hxS : S x := hS x List.mem_cons_self
      -- each list starts with its least member, and the members are the same
      have heq : x = y := hx.head_eq h hy hxS hyS ((hm x).mp List.mem_cons_self)
        ((hm y).mpr List.mem_cons_self)
      subst heq
      -- neither tail holds the head again, so the tails have the same members too
      have htail : xs = ys := by
        apply ih hx.tail hy.tail fun z hz => hS z (List.mem_cons_of_mem x hz)
        intro z
        constructor
        · intro hz
          rcases List.mem_cons.mp ((hm z).mp (List.mem_cons_of_mem x hz)) with rfl | hz'
          · exact absurd hz (hx.not_mem h hxS)
          · exact hz'
        · intro hz
          rcases List.mem_cons.mp ((hm z).mpr (List.mem_cons_of_mem x hz)) with rfl | hz'
          · exact absurd hz (hy.not_mem h hxS)
          · exact hz'
      rw [htail]

end Ascending

/-! ## Erasing repetitions -/

section Repetitions

variable [DecidableEq N]

theorem eraseRepsBy_loop_append (x : N) (xs acc : List N) :
    List.eraseRepsBy.loop (· == ·) x xs acc
      = acc.reverse ++ List.eraseRepsBy.loop (· == ·) x xs [] := by
  induction xs generalizing x acc with
  | nil => simp [List.eraseRepsBy.loop]
  | cons y ys ih =>
    simp only [List.eraseRepsBy.loop]
    split
    · exact ih x acc
    · rw [ih y (x :: acc), ih y [x]]
      simp

theorem eraseReps_cons_cons (x y : N) (ys : List N) :
    (x :: y :: ys).eraseReps
      = if x = y then (y :: ys).eraseReps else x :: (y :: ys).eraseReps := by
  by_cases hxy : x = y
  · subst hxy
    simp [List.eraseReps, List.eraseRepsBy, List.eraseRepsBy.loop]
  · rw [if_neg hxy]
    simp only [List.eraseReps, List.eraseRepsBy, List.eraseRepsBy.loop, beq_eq_false_iff_ne.mpr hxy]
    exact eraseRepsBy_loop_append y ys [x]

theorem mem_eraseReps (x : N) (xs : List N) : x ∈ xs.eraseReps ↔ x ∈ xs := by
  induction xs with
  | nil => simp [List.eraseReps, List.eraseRepsBy]
  | cons y ys ih =>
    cases ys with
    | nil => simp [List.eraseReps, List.eraseRepsBy, List.eraseRepsBy.loop]
    | cons z zs =>
      rw [eraseReps_cons_cons]
      by_cases hyz : y = z
      · subst hyz
        rw [if_pos rfl, ih]
        simp
      · rw [if_neg hyz, List.mem_cons, ih]
        simp

/-- Where equal nodes stand side by side, each is left once. -/
theorem ascends_eraseReps {S : N → Prop} {order : N → N → Ordering} (h : LinearOn S order)
    {xs : List N} (hS : ∀ x ∈ xs, S x) (hxs : xs.Pairwise fun x y => order y x ≠ .lt) :
    Ascends order xs.eraseReps := by
  induction xs with
  | nil => exact List.Pairwise.nil
  | cons x ys ih =>
    have htail := ih (fun y hy => hS y (List.mem_cons_of_mem x hy)) hxs.tail
    cases ys with
    | nil => exact List.pairwise_singleton _ x
    | cons y ys =>
      rw [eraseReps_cons_cons]
      by_cases hxy : x = y
      · rwa [if_pos hxy]
      · rw [if_neg hxy]
        refine List.pairwise_cons.mpr ⟨?_, htail⟩
        intro z hz
        have hzm : z ∈ y :: ys := (mem_eraseReps z _).mp hz
        have hx : S x := hS x List.mem_cons_self
        have hz' : S z := hS z (List.mem_cons_of_mem x hzm)
        rcases h.lt_or_eq hx hz' (List.rel_of_pairwise_cons hxs hzm) with hlt | rfl
        · exact hlt
        · -- `x` itself further on would stand beyond `y`, so `y` would be `x`
          have hy : S y := hS y (List.mem_cons_of_mem x List.mem_cons_self)
          have hyx : order y x ≠ .lt := List.rel_of_pairwise_cons hxs List.mem_cons_self
          rcases List.mem_cons.mp hzm with hzy | hzm
          · exact absurd hzy hxy
          · have hxy' : order x y ≠ .lt := List.rel_of_pairwise_cons hxs.tail hzm
            rcases h.lt_or_eq hx hy hyx with hlt | heq
            · exact absurd hlt hxy'
            · exact absurd heq hxy

end Repetitions

/-! ## Sorting -/

namespace Document

variable [DecidableEq N] [Ord N] (d : Document N)

theorem mem_settle (x y : N) (ys : List N) : x ∈ d.settle y ys ↔ x = y ∨ x ∈ ys := by
  induction ys with
  | nil => simp [settle]
  | cons z zs ih =>
    simp only [settle]
    split
    · rw [List.mem_cons, ih, List.mem_cons]
      grind
    · simp

/-- A backward list stays one. -/
theorem backward_settle {S : N → Prop} (h : LinearOn S d.order) {x : N} {ys : List N}
    (hx : S x) (hS : ∀ y ∈ ys, S y) (hys : ys.Pairwise fun y z => d.order y z ≠ .lt) :
    (d.settle x ys).Pairwise fun y z => d.order y z ≠ .lt := by
  induction ys with
  | nil => exact List.pairwise_singleton _ x
  | cons y ys ih =>
    have hy : S y := hS y List.mem_cons_self
    have hS' : ∀ z ∈ ys, S z := fun z hz => hS z (List.mem_cons_of_mem y hz)
    simp only [settle]
    split
    -- `x` goes further in: what stands before it is later than `x`
    next hlt =>
      refine List.pairwise_cons.mpr ⟨?_, ih hS' hys.tail⟩
      intro z hz
      rcases (d.mem_settle z x ys).mp hz with rfl | hz
      · exact h.not_lt_of_lt hx hy hlt
      · exact List.rel_of_pairwise_cons hys hz
    next hge =>
      refine List.pairwise_cons.mpr ⟨?_, hys⟩
      intro z hz
      rcases List.mem_cons.mp hz with rfl | hz
      · exact hge
      · exact h.not_lt_trans (hS' z hz) hy hx (List.rel_of_pairwise_cons hys hz) hge

theorem mem_foldl_settle (x : N) (xs acc : List N) :
    x ∈ xs.foldl (fun sorted y => d.settle y sorted) acc ↔ x ∈ xs ∨ x ∈ acc := by
  induction xs generalizing acc with
  | nil => simp
  | cons y ys ih =>
    rw [List.foldl_cons, ih, mem_settle, List.mem_cons]
    grind

theorem backward_foldl_settle {S : N → Prop} (h : LinearOn S d.order) {xs acc : List N}
    (hS : ∀ x ∈ xs, S x) (hacc : ∀ x ∈ acc, S x)
    (hback : acc.Pairwise fun y z => d.order y z ≠ .lt) :
    (xs.foldl (fun sorted y => d.settle y sorted) acc).Pairwise
      fun y z => d.order y z ≠ .lt := by
  induction xs generalizing acc with
  | nil => exact hback
  | cons x xs ih =>
    have hx : S x := hS x List.mem_cons_self
    apply ih fun y hy => hS y (List.mem_cons_of_mem x hy)
    · intro y hy
      rcases (d.mem_settle y x acc).mp hy with rfl | hy
      · exact hx
      · exact hacc y hy
    · exact d.backward_settle h hx hacc hback

omit d in
theorem settle_congr {d d' : Document N} (h : d'.order = d.order) (x : N) (ys : List N) :
    d'.settle x ys = d.settle x ys := by
  induction ys with
  | nil => rfl
  | cons y ys ih => simp only [settle, h, ih]

omit d in
/-- Of a document only the order counts. -/
theorem nodeSet_congr {d d' : Document N} (h : d'.order = d.order) (xs : List N) :
    d'.nodeSet xs = d.nodeSet xs := by
  simp only [nodeSet, sort, settle_congr h]

theorem mem_sort (x : N) (xs : List N) : x ∈ d.sort xs ↔ x ∈ xs := by
  simp [sort, mem_foldl_settle]

theorem sort_pairwise {S : N → Prop} (h : LinearOn S d.order) {xs : List N}
    (hS : ∀ x ∈ xs, S x) : (d.sort xs).Pairwise fun x y => d.order y x ≠ .lt :=
  List.pairwise_reverse.mpr
    (d.backward_foldl_settle h hS (fun _ hx => absurd hx List.not_mem_nil) List.Pairwise.nil)

theorem mem_nodeSet (x : N) (xs : List N) : x ∈ d.nodeSet xs ↔ x ∈ xs := by
  rw [nodeSet, mem_eraseReps, mem_sort]

theorem ascends_nodeSet {S : N → Prop} (h : LinearOn S d.order) {xs : List N}
    (hS : ∀ x ∈ xs, S x) : Ascends d.order (d.nodeSet xs) := by
  apply ascends_eraseReps h _ (d.sort_pairwise h hS)
  intro x hx
  exact hS x ((d.mem_sort x xs).mp hx)

/-- A node-set is decided by the nodes in it, wherever they come from. -/
theorem nodeSet_filter_congr {S : N → Prop} (h : LinearOn S d.order) (p : N → Bool)
    {xs ys : List N} (hx : ∀ x ∈ xs, S x) (hy : ∀ y ∈ ys, S y)
    (hxy : ∀ x, p x → (x ∈ xs ↔ x ∈ ys)) :
    (d.nodeSet xs).filter p = (d.nodeSet ys).filter p := by
  apply Ascends.ext h ((d.ascends_nodeSet h hx).filter p) ((d.ascends_nodeSet h hy).filter p)
  · intro x hm
    exact hx x ((d.mem_nodeSet x xs).mp (List.mem_filter.mp hm).1)
  · intro x
    simp only [List.mem_filter, mem_nodeSet]
    exact and_congr_left fun hp => hxy x hp

end Document

end ReactiveForm
