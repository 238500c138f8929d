import ReactiveForm.Proofs.Document.Preorder

/-!
# Document order on several trees

The nodes of one tree are ordered by their places in it, the nodes of different trees by their
handles. The two ways agree with each other exactly when no handle of a node falls between two nodes
of another tree that stand the other way round; otherwise document order runs in a circle.
-/

set_option autoImplicit false

namespace ReactiveForm

namespace Links

variable {N : Type} {t : Links N}

/-- The branch of a node starts at the topmost node above it. -/
theorem head?_branch (x : N) : (t.branch x).head? = some (t.topmost x) := by
  rw [branch, List.head?_reverse, List.getLast?_cons, topmost]

theorem AtDepth.topmost_eq {root x : N} {n : Nat} (hroot : t.parent root = none)
    (h : t.AtDepth root n x) (hn : n ≤ t.height) : t.topmost x = root := by
  obtain ⟨ys, hys, _⟩ := h.reverse_ancestorsUpTo hroot hn
  have hhead := head?_branch (t := t) x
  rw [branch, ancestors, hys] at hhead
  exact (Option.some.inj hhead).symm

end Links

namespace HostTree

variable {N : Type} {t : HostTree N} {nodes : Finset N}

namespace IsForest

variable (h : t.IsForest nodes)

include h

/-- The nodes below one root make up a tree. -/
theorem rootedOn_topmost [DecidableEq N] {x : N} (hx : x ∈ nodes) :
    t.RootedOn (t.topmost x) fun y => y ∈ nodes ∧ t.topmost y = t.topmost x where
  top_parent := by
    obtain ⟨root, n, hn, hroot, hdepth⟩ := h.exists_root hx
    rw [hdepth.topmost_eq hroot hn]
    exact hroot
  closed := by
    rintro y p ⟨hy, hyx⟩ hp
    obtain ⟨root, n, hn, hroot, hdepth⟩ := h.exists_root hy
    refine ⟨h.closed hy hp, ?_⟩
    rw [← hyx, hdepth.topmost_eq hroot hn]
    -- the parent of `y` reaches the same root in one step less, so it has the same topmost node
    cases n with
    | zero =>
      obtain rfl := hdepth
      exact nomatch hp.symm.trans hroot
    | succ n =>
      obtain ⟨q, hq, hdepth⟩ := hdepth
      obtain rfl : p = q := Option.some.inj (hp.symm.trans hq)
      exact hdepth.topmost_eq hroot (by omega)
  depth := by
    rintro y ⟨hy, hyx⟩
    obtain ⟨root, n, hn, hroot, hdepth⟩ := h.exists_root hy
    rw [← hyx, hdepth.topmost_eq hroot hn]
    exact ⟨n, hn, hdepth⟩
  listed := by
    rintro y z p ⟨hy, _⟩ ⟨hz, _⟩ hyp hzp _
    have hp := h.closed hy hyp
    exact ⟨(h.mem_listed hp).mpr ⟨hy, hyp⟩, (h.mem_listed hp).mpr ⟨hz, hzp⟩⟩

end IsForest

variable [DecidableEq N] [Ord N]

/-- Different trees are ordered by the handles of the nodes at hand. -/
theorem compareByAncestry_of_topmost_ne {x y : N} (hxy : t.topmost x ≠ t.topmost y) :
    t.compareByAncestry x y = compare x y := by
  have hne : x ≠ y := fun heq => hxy (congrArg _ heq)
  obtain ⟨xs, hxs⟩ := List.head?_eq_some_iff.mp (Links.head?_branch (t := t.toLinks) x)
  obtain ⟨ys, hys⟩ := List.head?_eq_some_iff.mp (Links.head?_branch (t := t.toLinks) y)
  rw [compareByAncestry, if_neg hne, hxs, hys, compareBranches, if_neg hxy]

/-- Where `x` stands before `y` in one tree, no node of another tree has a handle above that of `y`
and below that of `x`. -/
def Unmingled (t : HostTree N) (nodes : Finset N) : Prop :=
  ∀ x ∈ nodes, ∀ y ∈ nodes, ∀ z ∈ nodes, t.topmost x = t.topmost y → t.topmost z ≠ t.topmost x →
    t.compareByAncestry x y = .lt → compare y z = .lt → compare z x ≠ .lt

namespace IsForest

variable (h : t.IsForest nodes)

include h

theorem linearOn_topmost {x : N} (hx : x ∈ nodes) :
    LinearOn (fun y => y ∈ nodes ∧ t.topmost y = t.topmost x) t.compareByAncestry :=
  (h.rootedOn_topmost hx).linearOn_compareByAncestry

theorem compareByAncestry_eq_iff [Std.LawfulEqOrd N] {x y : N} (hx : x ∈ nodes) (hy : y ∈ nodes) :
    t.compareByAncestry x y = .eq ↔ x = y := by
  by_cases hxy : t.topmost x = t.topmost y
  · exact (h.linearOn_topmost hx).eq_iff ⟨hx, rfl⟩ ⟨hy, hxy.symm⟩
  · rw [compareByAncestry_of_topmost_ne hxy]
    exact Std.LawfulEqCmp.compare_eq_iff_eq

theorem compareByAncestry_swap [Std.OrientedOrd N] {x y : N} (hx : x ∈ nodes) (hy : y ∈ nodes) :
    t.compareByAncestry y x = (t.compareByAncestry x y).swap := by
  by_cases hxy : t.topmost x = t.topmost y
  · exact (h.linearOn_topmost hx).swap ⟨hx, rfl⟩ ⟨hy, hxy.symm⟩
  · rw [compareByAncestry_of_topmost_ne hxy, compareByAncestry_of_topmost_ne (Ne.symm hxy)]
    exact Std.OrientedCmp.eq_swap

variable [Std.TransOrd N] [Std.LawfulEqOrd N]

theorem compareByAncestry_trans (ht : t.Unmingled nodes) {x y z : N} (hx : x ∈ nodes)
    (hy : y ∈ nodes) (hz : z ∈ nodes) (hxy : t.compareByAncestry x y = .lt)
    (hyz : t.compareByAncestry y z = .lt) : t.compareByAncestry x z = .lt := by
  have hcases : x = z ∨ t.compareByAncestry x z = .lt ∨ t.compareByAncestry z x = .lt := by
    rw [h.compareByAncestry_swap hx hz, ← h.compareByAncestry_eq_iff hx hz]
    cases t.compareByAncestry x z <;> decide
  -- otherwise the three nodes run in a circle
  rcases hcases with rfl | hxz | hzx
  · rw [h.compareByAncestry_swap hx hy, hxy] at hyz
    exact nomatch hyz
  · exact hxz
  exfalso
  by_cases h₁ : t.topmost x = t.topmost y <;> by_cases h₂ : t.topmost y = t.topmost z
  · -- in one tree, places are compared throughout
    have hlinear := h.linearOn_topmost hx
    have hx' : x ∈ nodes ∧ t.topmost x = t.topmost x := ⟨hx, rfl⟩
    have hz' : z ∈ nodes ∧ t.topmost z = t.topmost x := ⟨hz, (h₁.trans h₂).symm⟩
    exact hlinear.not_lt_of_lt hx' hz' (hlinear.trans hx' ⟨hy, h₁.symm⟩ hz' hxy hyz) hzx
  · have hne : t.topmost z ≠ t.topmost x := fun heq => h₂ (h₁.symm.trans heq.symm)
    rw [compareByAncestry_of_topmost_ne h₂] at hyz
    rw [compareByAncestry_of_topmost_ne hne] at hzx
    exact ht x hx y hy z hz h₁ hne hxy hyz hzx
  · have hne : t.topmost z ≠ t.topmost x := fun heq => h₁ (heq.symm.trans h₂.symm)
    rw [compareByAncestry_of_topmost_ne h₁] at hxy
    rw [compareByAncestry_of_topmost_ne hne] at hzx
    exact ht y hy z hz x hx h₂ h₁ hyz hzx hxy
  · rw [compareByAncestry_of_topmost_ne h₁] at hxy
    rw [compareByAncestry_of_topmost_ne h₂] at hyz
    by_cases h₃ : t.topmost z = t.topmost x
    · exact ht z hz x hx y hy h₃ h₂ hzx hxy hyz
    · rw [compareByAncestry_of_topmost_ne h₃] at hzx
      have hxz := Std.TransCmp.lt_trans hxy hyz
      have hswap : compare x z = (compare z x).swap := Std.OrientedCmp.eq_swap
      rw [hswap, hzx] at hxz
      exact nomatch hxz

/-- Document order tells the nodes of any trees apart and turns round with its arguments. It is
linear exactly when no handle falls between two nodes of another tree the other way round. -/
theorem linearOn_iff_unmingled :
    (∀ x ∈ nodes, ∀ y ∈ nodes, (t.compareByAncestry x y = .eq ↔ x = y) ∧
      t.compareByAncestry y x = (t.compareByAncestry x y).swap) ∧
    (LinearOn (· ∈ nodes) t.compareByAncestry ↔ t.Unmingled nodes) := by
  refine ⟨fun x hx y hy => ⟨h.compareByAncestry_eq_iff hx hy, h.compareByAncestry_swap hx hy⟩,
    fun hlinear => ?_, fun ht => ?_⟩
  · intro x hx y hy z hz htop hne hxy hyz hzx
    rw [← compareByAncestry_of_topmost_ne (t := t) (fun heq => hne (htop.trans heq).symm)] at hyz
    rw [← compareByAncestry_of_topmost_ne hne] at hzx
    exact hlinear.not_lt_of_lt hx hz (hlinear.trans hx hy hz hxy hyz) hzx
  · exact ⟨h.compareByAncestry_eq_iff, h.compareByAncestry_swap, h.compareByAncestry_trans ht⟩

end IsForest

/-- The tree of a root and its child. Every other number is a tree of its own. -/
def couple (root child : Nat) : HostTree Nat where
  parent x := if x = child then some root else none
  children x := if x = root then [child] else []
  height := 2
  kind _ := .element
  name _ := none
  stringValue _ := ""

theorem isForest_couple {root child : Nat} (hne : root ≠ child) (stray : Nat) :
    (couple root child).IsForest {root, child, stray} where
  closed := by
    intro x p _ hp
    obtain ⟨_, rfl⟩ : x = child ∧ root = p := by simpa [couple] using hp
    exact Finset.mem_insert_self root _
  mem_listed := by
    intro p x _
    constructor
    · intro hx
      obtain ⟨rfl, rfl⟩ : p = root ∧ x = child := by simpa [couple, listed] using hx
      simp [couple]
    · rintro ⟨_, hp⟩
      obtain ⟨rfl, rfl⟩ : x = child ∧ root = p := by simpa [couple] using hp
      simp [couple, listed]
  nodup_listed := by
    intro p _
    by_cases hp : p = root <;> simp [couple, listed, hp]
  acyclic := by
    intro x n _
    -- the child ranks above its root, so no path leads back to where it started
    refine Links.not_atDepth_self (fun y => if y = child then 1 else 0) ?_
    intro y p hp
    obtain ⟨rfl, rfl⟩ : y = child ∧ root = p := by simpa [couple] using hp
    simp [hne]
  height := Finset.card_le_three

theorem couple_linear : (couple 0 1).IsForest {0, 1, 2} ∧
    LinearOn (· ∈ ({0, 1, 2} : Finset Nat)) (couple 0 1).compareByAncestry := by
  have hforest : (couple 0 1).IsForest {0, 1, 2} := isForest_couple (by decide) 2
  have hunmingled : (couple 0 1).Unmingled {0, 1, 2} := by
    unfold Unmingled
    decide
  exact ⟨hforest, hforest.linearOn_iff_unmingled.2.mpr hunmingled⟩

/-- The root stands before its child, the child before the stray tree and this one before the
root. -/
theorem couple_not_linear : (couple 2 0).IsForest {2, 0, 1} ∧
    ¬LinearOn (· ∈ ({2, 0, 1} : Finset Nat)) (couple 2 0).compareByAncestry := by
  refine ⟨isForest_couple (by decide) 1, fun hlinear => ?_⟩
  have hchild : (couple 2 0).compareByAncestry 2 0 = .lt := by decide
  have hstray : (couple 2 0).compareByAncestry 0 1 = .lt := by decide
  have hback : (couple 2 0).compareByAncestry 1 2 = .lt := by decide
  have htrans := hlinear.trans (by decide) (by decide) (by decide) hchild hstray
  exact hlinear.not_lt_of_lt (by decide) (by decide) htrans hback

end HostTree

end ReactiveForm
