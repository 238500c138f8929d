import ReactiveForm.Proofs.Tree.WellFormed
import ReactiveForm.Snapshot

/-!
# The rows of a snapshot

The snapshot of the root has a row for every live node.
-/

set_option autoImplicit false

namespace ReactiveForm

namespace Snapshot

variable {t : Tree} {id x : NodeId} {n : Node}

theorem self_mem_rows (s : Snapshot) : s ∈ s.rows := by
  cases s
  rw [rows]
  exact List.mem_cons_self

theorem rows_subset_allRows {c : Snapshot} {cs : List Snapshot} (h : c ∈ cs) :
    c.rows ⊆ allRows cs := by
  induction cs with
  | nil => exact absurd h List.not_mem_nil
  | cons d cs ih =>
    rw [allRows]
    rcases List.mem_cons.mp h with rfl | h
    · exact List.subset_append_left _ _
    · exact fun row hrow => List.mem_append_right _ (ih h hrow)

theorem rows_subset_of_mem {s c : Snapshot} (h : c ∈ s.children) : c.rows ⊆ s.rows := by
  cases s
  rw [rows]
  exact fun row hrow => List.mem_cons_of_mem _ (rows_subset_allRows h hrow)

theorem exists_upTo (hn : t.get? id = some n) (m : Nat) :
    ∃ children, upTo t m id = some (ofNode t id n children) := by
  cases m with
  | zero => exact ⟨[], by rw [upTo, hn]; rfl⟩
  | succ m => exact ⟨n.children.filterMap (upTo t m), by rw [upTo, hn]; rfl⟩

/-- What the snapshot of a node shows of a node below it is a part of it. -/
theorem exists_upTo_of_atDepth (hc : t.Connected) {m k : Nat} {s : Snapshot}
    (hs : upTo t m x = some s) (h : t.links.AtDepth x k id) (hk : k ≤ m) :
    ∃ s', upTo t (m - k) id = some s' ∧ s'.rows ⊆ s.rows := by
  induction k generalizing id with
  | zero =>
    obtain rfl := h
    exact ⟨s, hs, List.Subset.refl _⟩
  | succ k ih =>
    obtain ⟨p, hp, hdepth⟩ := h
    obtain ⟨sp, hsp, hsub⟩ := ih hdepth (by omega)
    obtain ⟨r, hr, hmem⟩ := Tree.get?_of_mem_children (hc.linked.mpr hp)
    obtain ⟨c, hc, _⟩ := Tree.get?_of_parent hp
    obtain ⟨children, hchild⟩ := exists_upTo hc (m - (k + 1))
    have hlevel : m - k = m - (k + 1) + 1 := by omega
    rw [hlevel, upTo, hr] at hsp
    obtain rfl := Option.some.inj hsp
    refine ⟨_, hchild, fun row hrow => hsub (rows_subset_of_mem ?_ hrow)⟩
    exact List.mem_filterMap.mpr ⟨id, hmem, hchild⟩

/-- Every live node has a row in the snapshot of the root. -/
theorem exists_row (hc : t.Connected) (hn : t.get? id = some n) {s : Snapshot}
    (hs : ofTree t t.root = some s) : ∃ children, ofNode t id n children ∈ s.rows := by
  obtain ⟨k, hdepth⟩ := hc.rooted hn
  have hk := hc.depth_lt_size hdepth ⟨n, hn⟩
  obtain ⟨s', hs', hsub⟩ := exists_upTo_of_atDepth hc hs hdepth (Nat.le_of_lt hk)
  obtain ⟨children, hrow⟩ := exists_upTo hn (t.arena.size - k)
  obtain rfl := Option.some.inj (hs'.symm.trans hrow)
  exact ⟨children, hsub (self_mem_rows _)⟩

end Snapshot

end ReactiveForm
