import Mathlib.Data.List.Nodup
import ReactiveForm.Proofs.Document.Ancestry
import ReactiveForm.Proofs.Tree.Arena
import ReactiveForm.Tree.Basic

/-!
# Well-formed live trees

The links of a live tree agree: every live node stands somewhere below the root, and a node lists
exactly those nodes that name it as their parent. As live nodes have slots of their own, no node
stands deeper than the arena is large, and every walk that is bounded by the size of the arena
comes to its natural end. In a well-formed tree, each node also is of a type that its place allows.
-/

set_option autoImplicit false

namespace ReactiveForm

/-- Whether a node of the first type may hold a node of the second type. -/
def NodeType.holds : NodeType → NodeType → Bool
  | .root, c | .group, c | .inst, c => c ≠ .root && c ≠ .inst
  | .range, c => c = .inst
  | .value, _ | .select, _ => false

namespace Tree

/-- The links agree, and every live node stands below the root. -/
structure Connected (t : Tree) : Prop where
  root_live : ∃ n, t.get? t.root = some n ∧ n.parent = none
  linked : ∀ {p c}, c ∈ t.children p ↔ t.parent c = some p
  rooted : ∀ {id n}, t.get? id = some n → ∃ depth, t.links.AtDepth t.root depth id

/-- Every node is of a type that its place allows. -/
structure Typed (t : Tree) : Prop where
  root_type : ∃ n, t.get? t.root = some n ∧ n.definition.type = .root
  holds : ∀ {p c m n}, t.get? p = some m → t.get? c = some n → n.parent = some p →
    m.definition.type.holds n.definition.type

structure WellFormed (t : Tree) : Prop where
  root_type : ∃ n, t.get? t.root = some n ∧ n.definition.type = .root ∧ n.parent = none
  linked : ∀ {p c}, c ∈ t.children p ↔ t.parent c = some p
  distinct : ∀ p, (t.children p).Nodup
  typed : ∀ {p c m n}, t.get? p = some m → t.get? c = some n → n.parent = some p →
    m.definition.type.holds n.definition.type
  rooted : ∀ {id n}, t.get? id = some n → ∃ depth, t.links.AtDepth t.root depth id

section

variable {t : Tree}

theorem parent_of_get? {id : NodeId} {n : Node} (h : t.get? id = some n) :
    t.parent id = n.parent := by
  simp [parent, h]

theorem children_of_get? {id : NodeId} {n : Node} (h : t.get? id = some n) :
    t.children id = n.children := by
  simp [children, h]

theorem get?_of_parent {id p : NodeId} (h : t.parent id = some p) :
    ∃ n, t.get? id = some n ∧ n.parent = some p := by
  unfold parent at h
  cases hn : t.get? id with
  | none => simp [hn] at h
  | some n => exact ⟨n, rfl, by simpa [hn] using h⟩

theorem get?_of_mem_children {p c : NodeId} (h : c ∈ t.children p) :
    ∃ m, t.get? p = some m ∧ c ∈ m.children := by
  unfold children at h
  cases hm : t.get? p with
  | none => simp [hm] at h
  | some m => exact ⟨m, rfl, by simpa [hm] using h⟩

theorem live_of_depth {n : Nat} {top id : NodeId} (hdepth : t.links.AtDepth top n id)
    (htop : ∃ m, t.get? top = some m) : ∃ m, t.get? id = some m := by
  cases n with
  | zero =>
    obtain rfl := hdepth
    exact htop
  | succ n =>
    obtain ⟨p, hp, _⟩ := hdepth
    obtain ⟨m, hm, _⟩ := get?_of_parent hp
    exact ⟨m, hm⟩

/-- There are no more live nodes than slots. -/
theorem length_le_size {ids : List NodeId} (hnodup : ids.Nodup)
    (hlive : ∀ x ∈ ids, ∃ m, t.get? x = some m) : ids.length ≤ t.arena.size := by
  have hindex : (ids.map (·.index)).Nodup := by
    refine List.Nodup.map_on ?_ hnodup
    intro x hx y hy hxy
    obtain ⟨_, hx⟩ := hlive x hx
    obtain ⟨_, hy⟩ := hlive y hy
    exact Arena.eq_of_index_eq hx hy hxy
  have hsub : ids.map (·.index) ⊆ List.range t.arena.size := by
    intro i hi
    obtain ⟨x, hx, rfl⟩ := List.mem_map.mp hi
    obtain ⟨_, hx⟩ := hlive x hx
    exact List.mem_range.mpr (Arena.index_lt_size hx)
  have hle := hindex.length_le_of_subset hsub
  rwa [List.length_map, List.length_range] at hle

theorem isRange_iff {id : NodeId} :
    t.isRange id ↔ ∃ n, t.get? id = some n ∧ n.definition.type = .range := by
  unfold isRange
  cases t.get? id <;> simp [Node.isRange]

theorem isLeaf_iff {id : NodeId} :
    t.isLeaf id ↔ ∃ n, t.get? id = some n ∧ n.definition.type.isLeaf := by
  unfold isLeaf
  cases t.get? id <;> simp [Definition.isLeaf]

end

namespace Connected

variable {t : Tree} (h : t.Connected)

include h

theorem parent_root : t.parent t.root = none := by
  obtain ⟨n, hn, hp⟩ := h.root_live
  rw [parent_of_get? hn, hp]

theorem get?_parent {p c : NodeId} (hp : t.parent c = some p) : ∃ m, t.get? p = some m := by
  obtain ⟨m, hm, _⟩ := get?_of_mem_children (h.linked.mpr hp)
  exact ⟨m, hm⟩

/-- Whatever stands above a live node is live. -/
theorem live_of_mem_ancestors {x id : NodeId} (hx : x ∈ id :: t.ancestors id)
    (hid : ∃ n, t.get? id = some n) : ∃ n, t.get? x = some n := by
  obtain ⟨k, hdepth⟩ := Links.exists_atDepth hx
  clear hx
  induction k generalizing id with
  | zero =>
    obtain rfl := hdepth
    exact hid
  | succ k ih =>
    obtain ⟨p, hp, hdepth⟩ := hdepth
    exact ih (h.get?_parent hp) hdepth

/-! ## Depth -/

theorem depth_unique {n m : Nat} {id : NodeId} (hn : t.links.AtDepth t.root n id)
    (hm : t.links.AtDepth t.root m id) : n = m :=
  hn.depth_unique h.parent_root hm

/-- A node at a depth has live nodes at all lesser depths. -/
theorem exists_of_depth {n : Nat} {id : NodeId} (hn : t.links.AtDepth t.root n id)
    (hlive : ∃ m, t.get? id = some m) :
    ∃ ids : List NodeId, ids.length = n + 1 ∧ ids.Nodup ∧ ∀ x ∈ ids, (∃ m, t.get? x = some m) ∧
      ∃ k ≤ n, t.links.AtDepth t.root k x := by
  induction n generalizing id with
  | zero => exact ⟨[id], rfl, List.nodup_singleton id, by simpa using ⟨hlive, hn⟩⟩
  | succ n ih =>
    obtain ⟨p, hp, hdepth⟩ := hn
    obtain ⟨ids, hlength, hnodup, hids⟩ := ih hdepth (h.get?_parent hp)
    refine ⟨id :: ids, by simp [hlength], ?_, ?_⟩
    · refine List.nodup_cons.mpr ⟨?_, hnodup⟩
      intro hm
      obtain ⟨_, k, hk, hkdepth⟩ := hids id hm
      have heq : k = n + 1 := h.depth_unique hkdepth (Exists.intro p ⟨hp, hdepth⟩)
      omega
    · intro x hx
      rcases List.mem_cons.mp hx with rfl | hx
      · exact ⟨hlive, n + 1, Nat.le_refl _, p, hp, hdepth⟩
      · obtain ⟨hx, k, hk, hkdepth⟩ := hids x hx
        exact ⟨hx, k, by omega, hkdepth⟩

/-- No node stands deeper than there are slots for the nodes above it. -/
theorem depth_lt_size {n : Nat} {id : NodeId} (hn : t.links.AtDepth t.root n id)
    (hlive : ∃ m, t.get? id = some m) : n < t.arena.size := by
  obtain ⟨ids, hlength, hnodup, hids⟩ := h.exists_of_depth hn hlive
  have hle := length_le_size hnodup fun x hx => (hids x hx).1
  omega

/-- Above a node there are its parent and what is above that one. -/
theorem ancestors_of_parent {p c : NodeId} (hp : t.parent c = some p) :
    t.ancestors c = p :: t.ancestors p := by
  obtain ⟨n, hn, _⟩ := get?_of_parent hp
  obtain ⟨depth, hdepth⟩ := h.rooted hn
  have hlt := h.depth_lt_size hdepth ⟨n, hn⟩
  exact hdepth.ancestors_of_parent h.parent_root (Nat.le_of_lt hlt) hp

theorem ancestors_root : t.ancestors t.root = [] := by
  have hroot : t.links.parent t.root = none := h.parent_root
  unfold ancestors Links.ancestors
  cases t.links.height <;> simp [Links.ancestorsUpTo, hroot]

/-- The subtree of a live node is complete. -/
theorem mem_subtree_iff {id x : NodeId} (hid : ∃ m, t.get? id = some m) :
    x ∈ t.subtree id ↔ ∃ k, t.links.AtDepth id k x := by
  have hiff : x ∈ t.subtree id ↔ ∃ k ≤ t.arena.size, t.links.AtDepth id k x :=
    Links.mem_subtreeUpTo_iff h.linked
  refine hiff.trans ⟨fun ⟨k, _, hdepth⟩ => ⟨k, hdepth⟩, ?_⟩
  rintro ⟨k, hdepth⟩
  refine ⟨k, ?_, hdepth⟩
  have hlive := live_of_depth hdepth hid
  obtain ⟨m, hm⟩ := hid
  obtain ⟨n, hn⟩ := h.rooted hm
  have hlt := h.depth_lt_size (hn.trans hdepth) hlive
  omega

/-- The live nodes are those below the root. -/
theorem mem_nodes_iff {x : NodeId} : x ∈ t.nodes ↔ ∃ n, t.get? x = some n := by
  obtain ⟨m, hm, _⟩ := h.root_live
  refine (h.mem_subtree_iff ⟨m, hm⟩).trans ⟨?_, fun ⟨n, hn⟩ => h.rooted hn⟩
  rintro ⟨k, hdepth⟩
  exact live_of_depth hdepth ⟨m, hm⟩

theorem mem_ancestors_of_mem_subtree {x y : NodeId} (hy : y ∈ t.subtree x) :
    x ∈ y :: t.ancestors y := by
  have hdepth : ∃ k ≤ t.arena.size, t.links.AtDepth x k y :=
    (Links.mem_subtreeUpTo_iff h.linked).mp hy
  obtain ⟨k, hk, hdepth⟩ := hdepth
  exact hdepth.mem_ancestorsUpTo hk

/-- A live node lies above all that is below it, and above nothing else. -/
theorem mem_subtree_iff_mem_ancestors {x y : NodeId} (hx : ∃ n, t.get? x = some n) :
    y ∈ t.subtree x ↔ x ∈ y :: t.ancestors y :=
  ⟨h.mem_ancestors_of_mem_subtree, fun hy => (h.mem_subtree_iff hx).mpr (Links.exists_atDepth hy)⟩

theorem not_below_self {id : NodeId} {k : Nat} (hid : ∃ n, t.get? id = some n) :
    ¬ t.links.AtDepth id (k + 1) id := by
  intro hcycle
  obtain ⟨n, hn⟩ := hid
  obtain ⟨depth, hdepth⟩ := h.rooted hn
  have heq := h.depth_unique hdepth (hdepth.trans hcycle)
  omega

/-- No node is reached twice. -/
theorem nodup_subtree (hdistinct : ∀ p, (t.children p).Nodup) {id : NodeId}
    (hid : ∃ n, t.get? id = some n) : (t.subtree id).Nodup := by
  suffices ∀ n, (t.links.subtreeUpTo n id).Nodup from this _
  intro n
  induction n generalizing id with
  | zero => exact List.nodup_singleton id
  | succ n ih =>
    have hbelow {c y : NodeId} (hc : c ∈ t.children id) (hy : y ∈ t.links.subtreeUpTo n c) :
        t.links.AtDepth id 1 c ∧ ∃ k, t.links.AtDepth c k y := by
      obtain ⟨k, _, hdepth⟩ := (Links.mem_subtreeUpTo_iff h.linked).mp hy
      exact ⟨⟨id, h.linked.mp hc, rfl⟩, k, hdepth⟩
    refine List.nodup_cons.mpr ⟨?_, List.nodup_flatMap.mpr ⟨?_, ?_⟩⟩
    · intro hself
      obtain ⟨c, hc, hmem⟩ := List.mem_flatMap.mp hself
      obtain ⟨hchild, k, hdepth⟩ := hbelow hc hmem
      have hcycle := hchild.trans hdepth
      rw [Nat.add_comm] at hcycle
      exact h.not_below_self hid hcycle
    · intro c hc
      obtain ⟨n, hn, _⟩ := get?_of_parent (h.linked.mp hc)
      exact ih ⟨n, hn⟩
    · -- a node below two children would be reached by two ways of one length
      refine (hdistinct id).imp_of_mem fun {c d} hc hd hne => ?_
      intro y hy hy'
      obtain ⟨hchild, k, hdepth⟩ := hbelow hc hy
      obtain ⟨hchild', k', hdepth'⟩ := hbelow hd hy'
      obtain ⟨n, hn⟩ := hid
      obtain ⟨depth, hroot⟩ := h.rooted hn
      have heq := h.depth_unique ((hroot.trans hchild).trans hdepth)
        ((hroot.trans hchild').trans hdepth')
      obtain rfl : k = k' := by omega
      exact hne (hdepth.top_unique hdepth')

theorem wellFormed (hdistinct : ∀ p, (t.children p).Nodup) (htyped : t.Typed) : t.WellFormed where
  root_type := by
    obtain ⟨n, hn, htype⟩ := htyped.root_type
    obtain ⟨m, hm, hp⟩ := h.root_live
    obtain rfl : n = m := Option.some.inj (hn.symm.trans hm)
    exact ⟨n, hn, htype, hp⟩
  linked := h.linked
  distinct := hdistinct
  typed := htyped.holds
  rooted := h.rooted

end Connected

namespace WellFormed

variable {t : Tree} (h : t.WellFormed)

include h

theorem connected : t.Connected where
  root_live := by
    obtain ⟨n, hn, _, hp⟩ := h.root_type
    exact ⟨n, hn, hp⟩
  linked := h.linked
  rooted := h.rooted

theorem types : t.Typed where
  root_type := by
    obtain ⟨n, hn, htype, _⟩ := h.root_type
    exact ⟨n, hn, htype⟩
  holds := h.typed

theorem isRange_root : t.isRange t.root = false := by
  obtain ⟨n, hn, htype, _⟩ := h.root_type
  simp [isRange, hn, Node.isRange, htype]

theorem holds_of_parent {p c : NodeId} {m n : Node} (hm : t.get? p = some m)
    (hn : t.get? c = some n) (hp : t.parent c = some p) :
    m.definition.type.holds n.definition.type := by
  apply h.typed hm hn
  rw [← parent_of_get? hn, hp]

theorem length_children_le (p : NodeId) : (t.children p).length ≤ t.arena.size := by
  refine length_le_size (h.distinct p) fun c hc => ?_
  obtain ⟨n, hn, _⟩ := get?_of_parent (h.linked.mp hc)
  exact ⟨n, hn⟩

theorem children_of_isLeaf {id : NodeId} (hl : t.isLeaf id) : t.children id = [] := by
  obtain ⟨m, hm, htype⟩ := isLeaf_iff.mp hl
  apply List.eq_nil_iff_forall_not_mem.mpr
  intro c hc
  obtain ⟨n, hn, hp⟩ := get?_of_parent (h.linked.mp hc)
  have hholds := h.typed hm hn hp
  generalize m.definition.type = type at htype hholds
  cases type <;> simp [NodeType.isLeaf, NodeType.holds] at htype hholds

/-- The parent of an instance is a range, and no other node lies in a range. -/
theorem isRange_parent_iff {p c : NodeId} {n : Node} (hn : t.get? c = some n)
    (hp : t.parent c = some p) : t.isRange p ↔ n.definition.type = .inst := by
  obtain ⟨m, hm⟩ := h.connected.get?_parent hp
  have hholds := h.holds_of_parent hm hn hp
  have hrange : t.isRange p ↔ m.definition.type = .range := by
    simp [isRange, hm, Node.isRange]
  rw [hrange]
  generalize m.definition.type = type at hholds ⊢
  cases type <;> simp_all [NodeType.holds]

theorem isRange_child {p c : NodeId} (hp : t.parent c = some p) (hr : t.isRange p) :
    t.isRange c = false := by
  obtain ⟨n, hn, _⟩ := get?_of_parent hp
  have hinst := (h.isRange_parent_iff hn hp).mp hr
  simp [isRange, hn, Node.isRange, hinst]

end WellFormed

end Tree

end ReactiveForm
