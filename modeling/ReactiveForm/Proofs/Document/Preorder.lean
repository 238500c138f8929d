import Mathlib.Data.Finset.Card
import Mathlib.Data.Fintype.Basic
import ReactiveForm.Proofs.Document.Subtree

/-!
# Finite trees in preorder

A host shows finitely many nodes, each of which lists exactly those nodes that name it as their
parent, attributes before children. Where no node stands above itself and there is one root, all
nodes stand below that root, and document order is the order of the preorder listing: a node comes
first, then its attributes, then the subtrees of its children.
-/

set_option autoImplicit false

namespace ReactiveForm

theorem compare_append_append (xs : List Nat) {m n : Nat} (hmn : m < n) (ms ns : List Nat) :
    compare (xs ++ m :: ms) (xs ++ n :: ns) = .lt := by
  induction xs with
  | nil => rw [List.nil_append, List.nil_append, List.compare_cons_cons, Nat.compare_eq_lt.mpr hmn]; rfl
  | cons x xs ih =>
    rw [List.cons_append, List.cons_append, List.compare_cons_cons, ih, Nat.compare_eq_eq.mpr rfl]
    rfl

/-- The members of a list without repetitions stand in the order of their places. -/
theorem pairwise_idxOf_lt {N : Type} [DecidableEq N] {xs : List N} (h : xs.Nodup) :
    xs.Pairwise fun x y => xs.idxOf x < xs.idxOf y := by
  rw [List.pairwise_iff_getElem]
  intro i j hi hj hij
  rw [h.idxOf_getElem, h.idxOf_getElem]
  exact hij

/-- An ascending list of some members of another ascending list is a part of it. -/
theorem Ascends.sublist_of_mem {N : Type} [DecidableEq N] {S : N → Prop} {order : N → N → Ordering}
    (h : LinearOn S order) {xs ys : List N} (hx : Ascends order xs) (hy : Ascends order ys)
    (hS : ∀ y ∈ ys, S y) (hxy : ∀ x ∈ xs, x ∈ ys) : xs.Sublist ys := by
  have hfilter : xs = ys.filter (· ∈ xs) := by
    refine hx.ext h (hy.filter _) (fun x hm => hS x (hxy x hm)) fun x => ?_
    rw [List.mem_filter, decide_eq_true_iff]
    exact ⟨fun hm => ⟨hxy x hm, hm⟩, And.right⟩
  rw [hfilter]
  exact List.filter_sublist

theorem Ascends.nodup {N : Type} {S : N → Prop} {order : N → N → Ordering} (h : LinearOn S order)
    {xs : List N} (hx : Ascends order xs) (hS : ∀ x ∈ xs, S x) : xs.Nodup := by
  refine hx.imp_of_mem fun {x y} hxm _ hlt => ?_
  rintro rfl
  exact h.irrefl (hS x hxm) hlt

namespace Links

variable {N : Type} {t : Links N}

/-- A walk upwards ends at a node without a parent, or it goes as far as it may. -/
theorem atDepth_or_length (n : Nat) (x : N) :
    (∃ top, t.parent top = none ∧ t.AtDepth top (t.ancestorsUpTo n x).length x) ∨
      (t.ancestorsUpTo n x).length = n := by
  induction n generalizing x with
  | zero => exact .inr rfl
  | succ n ih =>
    simp only [ancestorsUpTo]
    cases hp : t.parent x with
    | none => exact .inl ⟨x, hp, rfl⟩
    | some p =>
      rcases ih p with ⟨top, htop, hdepth⟩ | hlength
      · exact .inl ⟨top, htop, p, hp, hdepth⟩
      · exact .inr (congrArg (· + 1) hlength)

/-- Where a rank grows on every way down, no node stands above itself. -/
theorem not_atDepth_self (rank : N → Nat) (h : ∀ {x p}, t.parent x = some p → rank p < rank x)
    {n : Nat} {x : N} : ¬t.AtDepth x (n + 1) x := by
  have hle {n : Nat} {x y : N} (hdepth : t.AtDepth x n y) : rank x ≤ rank y := by
    induction n generalizing y with
    | zero =>
      obtain rfl := hdepth
      exact Nat.le_refl _
    | succ n ih =>
      obtain ⟨p, hp, hdepth⟩ := hdepth
      exact Nat.le_trans (ih hdepth) (Nat.le_of_lt (h hp))
  rintro ⟨p, hp, hdepth⟩
  exact Nat.not_lt.mpr (hle hdepth) (h hp)

end Links

namespace HostTree

section

variable {N : Type} (t : HostTree N)

/-- The tree in which attributes count as children. -/
def full : Links N where
  parent := t.parent
  children := t.listed
  height := t.height

/-- A node and all nodes below it: each node, then its attributes, then the subtrees of its
children. -/
def preorder (x : N) : List N := t.full.subtree x

end

/-! ## Trees in preorder -/

section

variable {N : Type} {t : HostTree N} {top : N} {S : N → Prop}

theorem atDepth_full {x y : N} {n : Nat} : t.full.AtDepth x n y ↔ t.AtDepth x n y := by
  induction n generalizing y with
  | zero => rfl
  | succ n ih => exact exists_congr fun p => and_congr_right fun _ => ih

theorem down_of_full {x y : N} {ys : List N} (h : t.full.Down x ys y) : t.Down x ys y := by
  induction h with
  | here x => exact .here x
  | step hp _ ih => exact .step hp ih

theorem rootedOn_of_treeOn [DecidableEq N] (h : t.full.TreeOn top S) : t.RootedOn top S where
  top_parent := h.top_parent
  closed := h.closed
  depth hx := by
    obtain ⟨n, hn, hdepth⟩ := h.depth hx
    exact ⟨n, hn, atDepth_full.mp hdepth⟩
  listed := by
    intro x y p hx hy hxp hyp _
    have hp := h.closed hx hxp
    exact ⟨(h.mem_children hp).mpr ⟨hx, hxp⟩, (h.mem_children hp).mpr ⟨hy, hyp⟩⟩

/-- In preorder, nodes stand in document order. -/
theorem ascends_subtree [DecidableEq N] [Ord N] (h : t.full.TreeOn top S) {x : N} (hx : S x) :
    Ascends t.compareByAncestry (t.full.subtree x) := by
  have hrooted := rootedOn_of_treeOn h
  -- below a child of `x`, an address is reached through that child
  have hdown {x c y : N} (hx : S x) (hc : c ∈ t.full.children x) (hy : y ∈ t.full.subtree c) :
      S y ∧ ∃ ys, t.Down x (c :: ys) y := by
    obtain ⟨hcmem, hp⟩ := h.child hx hc
    obtain ⟨hymem, ys, hdown⟩ := h.exists_down hcmem ((h.mem_subtree hcmem).mp hy)
    exact ⟨hymem, ys, .step hp (down_of_full hdown)⟩
  refine h.induction (P := fun x => Ascends t.compareByAncestry (t.full.subtree x)) ?_ hx
  intro x hx ih
  rw [h.subtree_eq hx]
  refine List.pairwise_cons.mpr ⟨?_, List.pairwise_flatMap.mpr ⟨ih, ?_⟩⟩
  · -- the address of `x` begins that of every node below it
    intro y hy
    obtain ⟨c, hc, hy⟩ := List.mem_flatMap.mp hy
    obtain ⟨hymem, ys, hdown⟩ := hdown hx hc hy
    rw [hrooted.compareByAncestry_eq hx hymem, hrooted.address_down hdown hymem]
    exact compare_append_cons _ _ _
  · -- below different children the places of these decide
    refine (pairwise_idxOf_lt (h.nodup_children hx)).imp_of_mem ?_
    intro c d hc hd hlt y hy z hz
    obtain ⟨hymem, ys, hy⟩ := hdown hx hc hy
    obtain ⟨hzmem, zs, hz⟩ := hdown hx hd hz
    rw [hrooted.compareByAncestry_eq hymem hzmem, hrooted.address_down hy hymem,
      hrooted.address_down hz hzmem]
    exact compare_append_append _ hlt _ _

end

section

variable {N : Type} (t : HostTree N)

/-- The nodes make up finitely many trees, whose links agree. -/
structure IsForest (nodes : Finset N) : Prop where
  closed : ∀ {x p}, x ∈ nodes → t.parent x = some p → p ∈ nodes
  mem_listed : ∀ {p x}, p ∈ nodes → (x ∈ t.listed p ↔ x ∈ nodes ∧ t.parent x = some p)
  nodup_listed : ∀ {p}, p ∈ nodes → (t.listed p).Nodup
  /-- No node stands above itself. -/
  acyclic : ∀ {x n}, x ∈ nodes → ¬t.AtDepth x (n + 1) x
  height : nodes.card ≤ t.height + 1

/-- The nodes make up one finite tree. -/
structure IsTree (nodes : Finset N) (top : N) : Prop extends t.IsForest nodes where
  top_mem : top ∈ nodes
  top_parent : t.parent top = none
  single : ∀ {x}, x ∈ nodes → t.parent x = none → x = top

end

variable {N : Type} {t : HostTree N} {nodes : Finset N} {top : N}

namespace IsForest

variable (h : t.IsForest nodes)

include h

/-- A way upwards passes through different nodes. -/
theorem nodup_chain (n : Nat) {x : N} (hx : x ∈ nodes) :
    (x :: t.ancestorsUpTo n x).Nodup ∧ ∀ y ∈ x :: t.ancestorsUpTo n x, y ∈ nodes := by
  induction n generalizing x with
  | zero => exact ⟨List.nodup_singleton x, List.forall_mem_singleton.mpr hx⟩
  | succ n ih =>
    simp only [Links.ancestorsUpTo]
    cases hp : t.parent x with
    | none => exact ⟨List.nodup_singleton x, List.forall_mem_singleton.mpr hx⟩
    | some p =>
      obtain ⟨hnodup, hmem⟩ := ih (h.closed hx hp)
      refine ⟨List.nodup_cons.mpr ⟨?_, hnodup⟩, List.forall_mem_cons.mpr ⟨hx, hmem⟩⟩
      intro hself
      obtain ⟨k, hdepth⟩ := Links.exists_atDepth hself
      exact h.acyclic hx ⟨p, hp, hdepth⟩

/-- Every node stands below a root, at a depth that the height allows. -/
theorem exists_root {x : N} (hx : x ∈ nodes) :
    ∃ root n, n ≤ t.height ∧ t.parent root = none ∧ t.AtDepth root n x := by
  obtain ⟨hnodup, hmem⟩ := h.nodup_chain nodes.card hx
  have hlength : (x :: t.ancestorsUpTo nodes.card x).length ≤ nodes.card := by
    classical
    rw [← List.toFinset_card_of_nodup hnodup]
    exact Finset.card_le_card fun y hy => hmem y (List.mem_toFinset.mp hy)
  have hheight := h.height
  rw [List.length_cons] at hlength
  rcases Links.atDepth_or_length (t := t.toLinks) nodes.card x with ⟨root, hroot, hdepth⟩ | hfull
  · exact ⟨root, _, by omega, hroot, hdepth⟩
  · omega

theorem mem_of_atDepth {n : Nat} {x y : N} (hy : y ∈ nodes) (hdepth : t.AtDepth x n y) :
    x ∈ nodes := by
  induction n generalizing y with
  | zero =>
    obtain rfl := hdepth
    exact hy
  | succ n ih =>
    obtain ⟨p, hp, hdepth⟩ := hdepth
    exact ih (h.closed hy hp) hdepth

end IsForest

namespace IsTree

variable (h : t.IsTree nodes top)

include h

theorem depth {x : N} (hx : x ∈ nodes) : ∃ n ≤ t.height, t.AtDepth top n x := by
  obtain ⟨root, n, hn, hroot, hdepth⟩ := h.exists_root hx
  obtain rfl := h.single (h.mem_of_atDepth hx hdepth) hroot
  exact ⟨n, hn, hdepth⟩

theorem treeOn : t.full.TreeOn top (· ∈ nodes) where
  top_mem := h.top_mem
  top_parent := h.top_parent
  closed := h.closed
  depth hx := by
    obtain ⟨n, hn, hdepth⟩ := h.depth hx
    exact ⟨n, hn, atDepth_full.mpr hdepth⟩
  mem_children := h.mem_listed
  nodup_children := h.nodup_listed

theorem rootedOn [DecidableEq N] : t.RootedOn top (· ∈ nodes) := rootedOn_of_treeOn h.treeOn

theorem mem_preorder {x : N} : x ∈ t.preorder top ↔ x ∈ nodes :=
  (h.treeOn.mem_subtree h.top_mem).trans h.treeOn.mem_iff_reaches.symm

variable [DecidableEq N] [Ord N]

theorem ascends_preorder : Ascends t.compareByAncestry (t.preorder top) :=
  ascends_subtree h.treeOn h.top_mem

theorem nodup_preorder : (t.preorder top).Nodup :=
  h.ascends_preorder.nodup h.rootedOn.linearOn_compareByAncestry fun _ hx => h.mem_preorder.mp hx

theorem sublist_preorder {xs : List N} (hxs : Ascends t.compareByAncestry xs)
    (hmem : ∀ x ∈ xs, x ∈ nodes) : xs.Sublist (t.preorder top) :=
  hxs.sublist_of_mem h.rootedOn.linearOn_compareByAncestry h.ascends_preorder
    (fun _ hx => h.mem_preorder.mp hx) fun x hx => h.mem_preorder.mpr (hmem x hx)

end IsTree

/-! ## A small tree -/

/-- An element `1` below the root `0`, with an attribute `2` and the children `3` and `4`. -/
def sprig : HostTree (Fin 5) where
  parent x := if x = 0 then none else if x = 1 then some 0 else some 1
  children x := if x = 0 then [1] else if x = 1 then [3, 4] else []
  attributes x := if x = 1 then [2] else []
  height := 5
  kind x := if x = 0 then .document else if x = 2 then .attr else .element
  name x := if x = 0 then none else some "a"
  stringValue _ := ""

theorem isTree_sprig : sprig.IsTree Finset.univ 0 where
  closed _ _ := Finset.mem_univ _
  mem_listed {p x} _ := by revert p x; decide
  nodup_listed {p} _ := by revert p; decide
  acyclic _ := Links.not_atDepth_self Fin.val fun {x p} => by revert x p; decide
  height := by decide
  top_mem := Finset.mem_univ _
  top_parent := rfl
  single {x} _ := by revert x; decide

end HostTree

namespace Document

variable {N : Type} [DecidableEq N] [Ord N]

/-- The nodes make up one finite tree, which the root and the order of the document fit. -/
structure IsTree (d : Document N) (nodes : Finset N) (top : N) : Prop
    extends d.toHostTree.IsTree nodes top where
  root_mem : ∀ {x}, x ∈ nodes → d.root x ∈ nodes
  order_eq : ∀ {x y}, x ∈ nodes → y ∈ nodes → d.order x y = d.compareByAncestry x y

/-- A host may leave the root and the order of nodes to the definitions given here. -/
theorem isTree_of_hostTree {t : HostTree N} {nodes : Finset N} {top : N}
    (h : t.IsTree nodes top) : ({ toHostTree := t } : Document N).IsTree nodes top where
  toIsTree := h
  root_mem := by
    intro x hx
    obtain ⟨_, hmem⟩ := h.nodup_chain t.height hx
    change (t.ancestors x).getLast?.getD x ∈ nodes
    cases hlast : (t.ancestors x).getLast? with
    | none => exact hx
    | some y => exact hmem y (List.mem_cons_of_mem x (List.mem_of_getLast? hlast))
  order_eq _ _ := rfl

end Document

end ReactiveForm
