import Mathlib.Data.List.Flatten
import ReactiveForm.Document.Axes
import ReactiveForm.Proofs.Document.Preorder

/-!
# What lies around a node

In a finite tree the nodes other than attributes make up a tree of their own. From any node of
the document, its ancestors, its descendants, the nodes before it and those after it share out the
rest of that tree, and every axis runs along document order or against it.
-/

set_option autoImplicit false

namespace ReactiveForm

open scoped List

namespace Links.TreeOn

variable {N : Type} {t : Links N} {top : N} {S : N → Prop} (h : t.TreeOn top S)

include h

theorem subtree_eq_descendants {x : N} (hx : S x) : t.subtree x = x :: t.descendants x := by
  cases hheight : t.height with
  | zero =>
    obtain ⟨n, _, hdepth⟩ := h.depth hx
    have hnil := h.children_eq_nil hx hdepth (by omega)
    rw [h.subtree_eq hx, descendants, hnil]
    rfl
  | succ k =>
    rw [subtree, descendants, hheight]
    rfl

theorem descendants_eq {x : N} (hx : S x) :
    t.descendants x = (t.children x).flatMap t.subtree :=
  List.tail_eq_of_cons_eq ((h.subtree_eq_descendants hx).symm.trans (h.subtree_eq hx))

theorem sublist_flatMap_subtree {xs : List N} (hxs : ∀ x ∈ xs, S x) :
    xs.Sublist (xs.flatMap t.subtree) := by
  induction xs with
  | nil => exact List.Sublist.refl []
  | cons x xs ih =>
    rw [List.flatMap_cons, h.subtree_eq (hxs x List.mem_cons_self)]
    have htail := ih fun y hy => hxs y (List.mem_cons_of_mem x hy)
    exact (htail.trans (List.sublist_append_right _ _)).cons_cons x

theorem sublist_descendants {x : N} (hx : S x) : (t.children x).Sublist (t.descendants x) := by
  rw [h.descendants_eq hx]
  exact h.sublist_flatMap_subtree fun c hc => (h.child hx hc).1

theorem sublist_subtree {x : N} (hx : S x) : (t.descendants x).Sublist (t.subtree x) := by
  rw [h.subtree_eq_descendants hx]
  exact List.sublist_cons_self _ _

/-- What a subtree holds stands in the subtree of the top, in the same order. -/
theorem subtree_sublist {x : N} (hx : S x) : (t.subtree x).Sublist (t.subtree top) := by
  obtain ⟨n, _, hdepth⟩ := h.depth hx
  induction n generalizing x with
  | zero =>
    obtain rfl := hdepth
    exact List.Sublist.refl _
  | succ n ih =>
    obtain ⟨p, hp, hdepth⟩ := hdepth
    have hpmem := h.closed hx hp
    refine List.Sublist.trans ?_ (ih hpmem (by omega) hdepth)
    have hc := (h.mem_children hpmem).mpr ⟨hx, hp⟩
    rw [h.subtree_eq hpmem]
    refine List.Sublist.cons p ?_
    exact List.sublist_flatten_of_mem (List.mem_map_of_mem hc)

end Links.TreeOn

namespace HostTree

variable {N : Type} {t : HostTree N} {nodes : Finset N} {top : N}

/-- Attributes are the nodes that some node lists as such, and nothing is below them. -/
structure AttributesApart (t : HostTree N) (nodes : Finset N) : Prop where
  kind_iff : ∀ {x}, x ∈ nodes → (t.kind x = .attr ↔ ∃ y ∈ nodes, x ∈ t.attributes y)
  listed_eq_nil : ∀ {x}, x ∈ nodes → t.kind x = .attr → t.listed x = []

namespace IsTree

variable (h : t.IsTree nodes top) (ha : t.AttributesApart nodes)

include h ha

theorem parent_of_attr {x : N} (hx : x ∈ nodes) (hattr : t.kind x = .attr) :
    ∃ e ∈ nodes, t.parent x = some e ∧ x ∈ t.attributes e ∧ t.kind e ≠ .attr := by
  obtain ⟨e, he, hmem⟩ := (ha.kind_iff hx).mp hattr
  have hlisted : x ∈ t.listed e := List.mem_append_left _ hmem
  refine ⟨e, he, ((h.mem_listed he).mp hlisted).2, hmem, fun heattr => ?_⟩
  rw [ha.listed_eq_nil he heattr] at hlisted
  exact List.not_mem_nil hlisted

/-- The nodes other than attributes make up a tree, in which only children count. -/
theorem treeOn_toLinks : t.toLinks.TreeOn top fun x => x ∈ nodes ∧ t.kind x ≠ .attr where
  top_mem := by
    refine ⟨h.top_mem, fun hattr => ?_⟩
    obtain ⟨e, _, hparent, _⟩ := h.parent_of_attr ha h.top_mem hattr
    exact nomatch h.top_parent.symm.trans hparent
  top_parent := h.top_parent
  closed := by
    intro x p hx hp
    have hpmem := h.closed hx.1 hp
    refine ⟨hpmem, fun hattr => ?_⟩
    have hlisted := (h.mem_listed hpmem).mpr ⟨hx.1, hp⟩
    rw [ha.listed_eq_nil hpmem hattr] at hlisted
    exact List.not_mem_nil hlisted
  depth hx := h.depth hx.1
  mem_children := by
    intro p x hp
    constructor
    · intro hc
      obtain ⟨hx, hparent⟩ := (h.mem_listed hp.1).mp (List.mem_append_right _ hc)
      -- an attribute among the children would be listed twice at its element
      refine ⟨⟨hx, fun hattr => ?_⟩, hparent⟩
      obtain ⟨e, _, hparent', hmem, _⟩ := h.parent_of_attr ha hx hattr
      obtain rfl : p = e := Option.some.inj (hparent.symm.trans hparent')
      exact (List.nodup_append.mp (h.nodup_listed hp.1)).2.2 x hmem x hc rfl
    · rintro ⟨⟨hx, hkind⟩, hparent⟩
      rcases List.mem_append.mp ((h.mem_listed hp.1).mpr ⟨hx, hparent⟩) with hmem | hc
      · exact absurd ((ha.kind_iff hx).mpr ⟨p, hp.1, hmem⟩) hkind
      · exact hc
  nodup_children hp := (List.nodup_append.mp (h.nodup_listed hp.1)).2.1

end IsTree

/-! ## Beside and around a node -/

section

variable [DecidableEq N]

theorem siblings_append {x p : N} (hkind : t.kind x ≠ .attr) (hp : t.parent x = some p)
    (hc : x ∈ t.children p) : t.children p = (t.siblings x).1 ++ x :: (t.siblings x).2 := by
  have hlt := List.idxOf_lt_length_of_mem hc
  have hsiblings : t.siblings x =
      ((t.children p).take ((t.children p).idxOf x),
        (t.children p).drop ((t.children p).idxOf x + 1)) := by
    rw [siblings, hp]
    split
    next _ hattr => exact absurd hattr hkind
    next hnone _ => exact nomatch hnone
    next q hq _ =>
      obtain rfl := Option.some.inj hq
      dsimp only
      rw [idxOf?_of_mem hc]
  rw [hsiblings]
  conv_lhs => rw [← List.take_append_drop ((t.children p).idxOf x) (t.children p)]
  rw [List.drop_eq_getElem_cons hlt, List.getElem_idxOf hlt]

theorem siblings_of_root {x : N} (hp : t.parent x = none) : t.siblings x = ([], []) := by
  rw [siblings, hp]
  split <;> simp_all

theorem siblings_sublist {x p : N} (hp : t.parent x = some p) :
    (t.siblings x).1.Sublist (t.children p) ∧ (t.siblings x).2.Sublist (t.children p) := by
  rw [siblings, hp]
  split
  next => exact ⟨List.nil_sublist _, List.nil_sublist _⟩
  next hnone _ => exact nomatch hnone
  next q hq _ =>
    obtain rfl := Option.some.inj hq
    dsimp only
    cases (t.children p).idxOf? x with
    | none => exact ⟨List.nil_sublist _, List.nil_sublist _⟩
    | some i => exact ⟨List.take_sublist _ _, List.drop_sublist _ _⟩

omit [DecidableEq N] in
theorem owner_of_attr {x e : N} (hattr : t.kind x = .attr) (hp : t.parent x = some e) :
    t.owner x = e := by
  rw [owner, hattr, hp]

omit [DecidableEq N] in
theorem owner_eq_self {x : N} (hkind : t.kind x ≠ .attr) : t.owner x = x := by
  rw [owner]
  split
  next hattr _ => exact absurd hattr hkind
  next => rfl

theorem followingAll_eq {x p : N} (hanc : t.ancestors x = p :: t.ancestors p) :
    t.followingAll x = (t.siblings x).2.flatMap t.subtree ++ t.followingAll p := by
  rw [followingAll, hanc, List.flatMap_cons]
  rfl

theorem precedingAll_eq {x p : N} (hanc : t.ancestors x = p :: t.ancestors p) :
    t.precedingAll x = ((t.siblings x).1.flatMap t.subtree).reverse ++ t.precedingAll p := by
  rw [precedingAll, hanc, List.flatMap_cons, List.reverse_flatMap]
  rfl

end

/-- All nodes but attributes, in preorder, as they lie around a node. -/
structure Around [DecidableEq N] (t : HostTree N) (top x : N) (before : List N) : Prop where
  subtree_top : t.subtree top = before ++ t.subtree x ++ t.followingAll x
  perm : before.Perm (t.ancestors x ++ t.precedingAll x)
  preceding : (t.precedingAll x).reverse.Sublist before

theorem around_top [DecidableEq N] (htop : t.parent top = none) : t.Around top top [] := by
  have hanc : t.ancestors top = [] :=
    Links.AtDepth.ancestorsUpTo_eq htop (n := 0) rfl (Nat.zero_le _)
  have hbefore : t.precedingAll top = [] := by
    rw [precedingAll, hanc, List.flatMap_singleton, siblings_of_root htop]
    rfl
  have hafter : t.followingAll top = [] := by
    rw [followingAll, hanc, List.flatMap_singleton, siblings_of_root htop]
    rfl
  constructor
  · rw [hafter, List.append_nil, List.nil_append]
  · rw [hanc, hbefore]
    rfl
  · rw [hbefore]
    exact List.Sublist.refl []

/-- From a node to a child, the parent and what the children before hold come to lie before. -/
theorem Around.child [DecidableEq N] {S : N → Prop} (h : t.toLinks.TreeOn top S) {x p : N}
    {before : List N} (hb : t.Around top p before) (hp : S p)
    (hanc : t.ancestors x = p :: t.ancestors p)
    (hchildren : t.children p = (t.siblings x).1 ++ x :: (t.siblings x).2) :
    t.Around top x (before ++ p :: (t.siblings x).1.flatMap t.subtree) where
  subtree_top := by
    rw [hb.subtree_top, h.subtree_eq hp, hchildren, followingAll_eq hanc, List.flatMap_append,
      List.flatMap_cons]
    simp only [List.append_assoc, List.cons_append]
  perm := by
    rw [hanc, precedingAll_eq hanc, List.cons_append]
    refine List.perm_middle.trans (List.Perm.cons p ?_)
    -- the siblings before `x` are gone through backwards on the axis and forwards in the subtree
    calc
      before ++ (t.siblings x).1.flatMap t.subtree
        ~ t.ancestors p ++ t.precedingAll p ++ (t.siblings x).1.flatMap t.subtree :=
        hb.perm.append_right _
      _ ~ t.ancestors p ++ ((t.siblings x).1.flatMap t.subtree ++ t.precedingAll p) := by
        rw [List.append_assoc]
        exact List.perm_append_comm.append_left _
      _ ~ t.ancestors p ++ (((t.siblings x).1.flatMap t.subtree).reverse ++ t.precedingAll p) :=
        ((List.reverse_perm _).symm.append_right _).append_left _
  preceding := by
    rw [precedingAll_eq hanc, List.reverse_append, List.reverse_reverse]
    exact hb.preceding.append (List.sublist_cons_self p _)

theorem exists_around [DecidableEq N] {S : N → Prop} (h : t.toLinks.TreeOn top S)
    (hkind : ∀ {x}, S x → t.kind x ≠ .attr) {x : N} (hx : S x) :
    ∃ before, t.Around top x before := by
  obtain ⟨n, hn, hdepth⟩ := h.depth hx
  induction n generalizing x with
  | zero =>
    obtain rfl := hdepth
    exact ⟨[], around_top h.top_parent⟩
  | succ n ih =>
    have hup := hdepth
    obtain ⟨p, hp, hdepth⟩ := hdepth
    have hanc := hup.ancestors_of_parent h.top_parent hn hp
    have hpmem := h.closed hx hp
    obtain ⟨before, hb⟩ := ih hpmem (by omega) hdepth
    have hc := (h.mem_children hpmem).mpr ⟨hx, hp⟩
    exact ⟨_, hb.child h hpmem hanc (siblings_append (hkind hx) hp hc)⟩

/-! ## Order along the axes -/

theorem flatMap_children_sublist {f g : N → List N} (hfg : ∀ c, (f c).Sublist (g c)) {x : N} :
    ((t.children x).flatMap f).Sublist ((t.listed x).flatMap g) :=
  calc
    (t.children x).flatMap f <+ (t.children x).flatMap g :=
      List.Sublist.flatMap_right _ fun c _ => hfg c
    _ <+ (t.listed x).flatMap g := (List.sublist_append_right _ _).flatMap g

theorem subtreeUpTo_sublist_full (n : Nat) (x : N) :
    (t.subtreeUpTo n x).Sublist (t.full.subtreeUpTo n x) := by
  induction n generalizing x with
  | zero => exact List.Sublist.refl [x]
  | succ n ih => exact (flatMap_children_sublist ih).cons_cons x

namespace IsTree

variable [DecidableEq N] [Ord N] (h : t.IsTree nodes top)

include h

theorem ascends_subtree_top : Ascends t.compareByAncestry (t.subtree top) :=
  h.ascends_preorder.sublist (subtreeUpTo_sublist_full t.height top)

/-- A node stands after its ancestors, and these after their own. -/
theorem ascends_ancestors {x : N} (hx : x ∈ nodes) :
    Ascends t.compareByAncestry (x :: t.ancestors x).reverse := by
  have hlinear := h.rootedOn.linearOn_compareByAncestry
  suffices hwalk : ∀ n x, x ∈ nodes →
      (x :: t.ancestorsUpTo n x).Pairwise fun y z => t.compareByAncestry z y = .lt from
    List.pairwise_reverse.mpr (hwalk t.height x hx)
  intro n
  induction n with
  | zero => exact fun x _ => List.pairwise_singleton _ x
  | succ n ih =>
    intro x hx
    simp only [Links.ancestorsUpTo]
    cases hp : t.parent x with
    | none => exact List.pairwise_singleton _ x
    | some p =>
      have hpmem := h.closed hx hp
      have hlt := h.rootedOn.lt_of_parent hx hp
      have habove := ih p hpmem
      refine List.pairwise_cons.mpr ⟨List.forall_mem_cons.mpr ⟨hlt, fun z hz => ?_⟩, habove⟩
      have hzmem := (h.nodup_chain n hpmem).2 z (List.mem_cons_of_mem p hz)
      exact hlinear.trans hzmem hpmem hx ((List.pairwise_cons.mp habove).1 z hz) hlt

theorem ascends_of_sublist_full {x : N} (hx : x ∈ nodes) {xs : List N}
    (hxs : xs.Sublist (t.full.subtree x)) : Ascends t.compareByAncestry xs :=
  h.ascends_preorder.sublist (hxs.trans (h.treeOn.subtree_sublist hx))

omit [DecidableEq N] [Ord N] in
theorem descendants_sublist_full {x : N} (hx : x ∈ nodes) :
    (x :: t.descendants x).Sublist (t.full.subtree x) := by
  rw [h.treeOn.subtree_eq_descendants hx]
  refine List.Sublist.cons_cons x ?_
  exact flatMap_children_sublist fun c => subtreeUpTo_sublist_full (t.height - 1) c

omit [DecidableEq N] [Ord N] in
theorem listed_sublist_full {x : N} (hx : x ∈ nodes) :
    (t.listed x).Sublist (t.full.subtree x) :=
  (h.treeOn.sublist_descendants hx).trans (h.treeOn.sublist_subtree hx)

theorem ascends_siblings {x : N} (hx : x ∈ nodes) :
    Ascends t.compareByAncestry (t.siblings x).1 ∧
      Ascends t.compareByAncestry (t.siblings x).2 := by
  cases hp : t.parent x with
  | none =>
    rw [siblings_of_root hp]
    exact ⟨List.Pairwise.nil, List.Pairwise.nil⟩
  | some p =>
    have hpmem := h.closed hx hp
    have hchildren : (t.children p).Sublist (t.full.subtree p) :=
      (List.sublist_append_right _ _).trans (h.listed_sublist_full hpmem)
    obtain ⟨hbefore, hafter⟩ := siblings_sublist hp
    exact ⟨h.ascends_of_sublist_full hpmem (hbefore.trans hchildren),
      h.ascends_of_sublist_full hpmem (hafter.trans hchildren)⟩

end IsTree

/-! ## The axes around a node -/

section

variable [DecidableEq N]

/-- What is found along the axes that lead out of a node in all directions. -/
def surroundings (t : HostTree N) (x : N) : List N :=
  t.along x .ancestor ++ t.along x .descendant ++ t.along x .preceding ++ t.along x .following

theorem surroundings_eq {x : N} (hkind : t.kind x ≠ .attr) :
    t.surroundings x = t.ancestors x ++ t.descendants x ++ t.precedingAll x ++ t.followingAll x := by
  simp only [surroundings, along, owner_eq_self hkind, if_true]

theorem surroundings_of_attr {x e : N} (hattr : t.kind x = .attr) (hp : t.parent x = some e)
    (he : t.kind e ≠ .attr) (hanc : t.ancestors x = e :: t.ancestors e)
    (hnil : t.descendants x = []) : t.surroundings x ~ e :: t.surroundings e := by
  have hne : e ≠ x := by
    rintro rfl
    exact he hattr
  rw [surroundings_eq he]
  simp only [surroundings, along, owner_of_attr hattr hp, hne, if_false, hanc, hnil,
    List.append_nil, List.cons_append, List.append_assoc]
  exact List.Perm.cons e ((List.perm_append_comm_assoc _ _ _).append_left _)

theorem Around.perm_surroundings {S : N → Prop} (h : t.toLinks.TreeOn top S) {x : N}
    {before : List N} (hb : t.Around top x before) (hx : S x) (hkind : t.kind x ≠ .attr) :
    x :: t.surroundings x ~ t.subtree top := by
  rw [hb.subtree_top, h.subtree_eq_descendants hx, surroundings_eq hkind]
  simp only [List.append_assoc, List.cons_append]
  refine (List.Perm.cons x ?_).trans List.perm_middle.symm
  calc
    t.ancestors x ++ (t.descendants x ++ (t.precedingAll x ++ t.followingAll x))
      ~ t.ancestors x ++ (t.precedingAll x ++ (t.descendants x ++ t.followingAll x)) :=
      (List.perm_append_comm_assoc _ _ _).append_left _
    _ ~ before ++ (t.descendants x ++ t.followingAll x) := by
      rw [← List.append_assoc]
      exact hb.perm.symm.append_right _

end

namespace IsTree

variable [DecidableEq N] [Ord N] (h : t.IsTree nodes top) (ha : t.AttributesApart nodes)

include h ha

omit [DecidableEq N] [Ord N] in
theorem mem_subtree_top {x : N} : x ∈ t.subtree top ↔ x ∈ nodes ∧ t.kind x ≠ .attr :=
  ((h.treeOn_toLinks ha).mem_subtree (h.treeOn_toLinks ha).top_mem).trans
    (h.treeOn_toLinks ha).mem_iff_reaches.symm

omit [Ord N] in
theorem perm_surroundings {x : N} (hx : x ∈ nodes) (hkind : t.kind x ≠ .attr) :
    x :: t.surroundings x ~ t.subtree top := by
  obtain ⟨before, hb⟩ := exists_around (h.treeOn_toLinks ha) And.right ⟨hx, hkind⟩
  exact hb.perm_surroundings (h.treeOn_toLinks ha) ⟨hx, hkind⟩ hkind

omit [Ord N] in
theorem perm_surroundings_of_attr {x : N} (hx : x ∈ nodes) (hattr : t.kind x = .attr) :
    t.surroundings x ~ t.subtree top := by
  obtain ⟨e, he, hp, _, hkind⟩ := h.parent_of_attr ha hx hattr
  obtain ⟨n, hn, hdepth⟩ := h.depth hx
  have hchildren : t.children x = [] :=
    (List.append_eq_nil_iff.mp (ha.listed_eq_nil hx hattr)).2
  have hnil : t.descendants x = [] := by
    rw [Links.descendants, hchildren]
    rfl
  exact (surroundings_of_attr hattr hp hkind (hdepth.ancestors_of_parent h.top_parent hn hp)
    hnil).trans (h.perm_surroundings ha he hkind)

/-- The nodes after a node and those before it, backwards, come in document order. -/
theorem ascends_around {x : N} (hx : x ∈ nodes) :
    Ascends t.compareByAncestry (t.along x .following) ∧
      Ascends t.compareByAncestry (t.along x .preceding).reverse := by
  have htop := h.ascends_subtree_top
  -- a node that is no attribute splits the subtree of the top into what is around it
  have haround {y : N} (hy : y ∈ nodes) (hkind : t.kind y ≠ .attr) :
      (t.descendants y ++ t.followingAll y).Sublist (t.subtree top) ∧
        (t.precedingAll y).reverse.Sublist (t.subtree top) := by
    obtain ⟨before, hb⟩ := exists_around (h.treeOn_toLinks ha) And.right ⟨hy, hkind⟩
    rw [hb.subtree_top, (h.treeOn_toLinks ha).subtree_eq_descendants ⟨hy, hkind⟩, List.append_assoc]
    constructor
    · exact (List.sublist_cons_self y _).trans (List.sublist_append_right before _)
    · exact hb.preceding.trans (List.sublist_append_left before _)
  by_cases hkind : t.kind x = .attr
  · -- an attribute looks around from its element, with the content of that element following
    obtain ⟨e, he, hp, _, hekind⟩ := h.parent_of_attr ha hx hkind
    have hne : e ≠ x := by
      rintro rfl
      exact hekind hkind
    simp only [along, owner_of_attr hkind hp, hne, if_false]
    exact ⟨htop.sublist (haround he hekind).1, htop.sublist (haround he hekind).2⟩
  · simp only [along, owner_eq_self hkind, if_true]
    exact ⟨htop.sublist ((List.sublist_append_right _ _).trans (haround hx hkind).1),
      htop.sublist (haround hx hkind).2⟩

/-- What lies around a node is every other node but the attributes, each once. -/
theorem nodup_surroundings_and_mem_iff {x : N} (hx : x ∈ nodes) :
    (t.surroundings x).Nodup ∧
      ∀ y, y ∈ t.surroundings x ↔ y ∈ nodes ∧ t.kind y ≠ .attr ∧ y ≠ x := by
  have hnodup : (t.subtree top).Nodup :=
    h.nodup_preorder.sublist (subtreeUpTo_sublist_full t.height top)
  have hall {y : N} := h.mem_subtree_top ha (x := y)
  by_cases hkind : t.kind x = .attr
  · have hperm := h.perm_surroundings_of_attr ha hx hkind
    refine ⟨hperm.nodup_iff.mpr hnodup, fun y => hperm.mem_iff.trans (hall.trans ?_)⟩
    refine and_congr_right fun _ => ⟨fun hy => ⟨hy, ?_⟩, And.left⟩
    rintro rfl
    exact hy hkind
  · have hperm := h.perm_surroundings ha hx hkind
    obtain ⟨hself, hrest⟩ := List.nodup_cons.mp (hperm.nodup_iff.mpr hnodup)
    refine ⟨hrest, fun y => ?_⟩
    have hmem := hperm.mem_iff.trans (hall (y := y))
    rw [List.mem_cons] at hmem
    rw [← and_assoc, ← hmem]
    constructor
    · intro hy
      refine ⟨.inr hy, ?_⟩
      rintro rfl
      exact hself hy
    · exact fun hy => hy.1.resolve_left hy.2

/-- Each axis runs along document order, or against it if it leads backwards. -/
theorem ascends_along {x : N} (hx : x ∈ nodes) (axis : Axis) :
    Ascends t.compareByAncestry
      (if axis.isReverse then (t.along x axis).reverse else t.along x axis) := by
  have hdescendants := h.descendants_sublist_full hx
  have hlisted := h.listed_sublist_full hx
  have hfull {xs : List N} (hxs : xs.Sublist (t.full.subtree x)) :=
    h.ascends_of_sublist_full hx hxs
  -- most axes run through part of the full subtree of `x` or of its ancestors
  cases axis with
  | child => exact hfull ((List.sublist_append_right _ _).trans hlisted)
  | descendant => exact hfull ((List.sublist_cons_self x _).trans hdescendants)
  | attributes => exact hfull ((List.sublist_append_left _ _).trans hlisted)
  | self => exact List.pairwise_singleton _ x
  | descendantOrSelf => exact hfull hdescendants
  | followingSibling => exact (h.ascends_siblings hx).2
  | following => exact (h.ascends_around ha hx).1
  | namespaces => exact List.Pairwise.nil
  | parent =>
    change Ascends _ (t.parent x).toList.reverse
    cases t.parent x with
    | none => exact List.Pairwise.nil
    | some p => exact List.pairwise_singleton _ p
  | ancestor =>
    refine (h.ascends_ancestors hx).sublist ?_
    rw [List.reverse_cons]
    exact List.sublist_append_left _ _
  | precedingSibling =>
    change Ascends _ (t.siblings x).1.reverse.reverse
    rw [List.reverse_reverse]
    exact (h.ascends_siblings hx).1
  | preceding => exact (h.ascends_around ha hx).2
  | ancestorOrSelf => exact h.ascends_ancestors hx

/-- The axes around a node share out the nodes other than attributes and the node itself, and each
axis runs along document order, or against it if it leads backwards. -/
theorem axes_partition {x : N} (hx : x ∈ nodes) :
    (t.along x .ancestor ++ t.along x .descendant ++ t.along x .preceding ++
        t.along x .following).Nodup ∧
      (∀ y, y ∈ t.along x .ancestor ++ t.along x .descendant ++ t.along x .preceding ++
        t.along x .following ↔ y ∈ nodes ∧ t.kind y ≠ .attr ∧ y ≠ x) ∧
      ∀ axis : Axis, Ascends t.compareByAncestry
        (if axis.isReverse then (t.along x axis).reverse else t.along x axis) := by
  obtain ⟨hnodup, hmem⟩ := h.nodup_surroundings_and_mem_iff ha hx
  exact ⟨hnodup, hmem, h.ascends_along ha hx⟩

end IsTree

theorem attributesApart_sprig : sprig.AttributesApart Finset.univ where
  kind_iff {x} _ := by revert x; decide
  listed_eq_nil {x} _ := by revert x; decide

theorem axes_partition_sprig :
    sprig.along 2 .ancestor ++ sprig.along 2 .descendant ++ sprig.along 2 .preceding ++
      sprig.along 2 .following = [1, 0, 3, 4] ∧
    (∀ y : Fin 5, y ∈ [1, 0, 3, 4] ↔ y ∈ Finset.univ ∧ sprig.kind y ≠ .attr ∧ y ≠ 2) ∧
    Ascends sprig.compareByAncestry [0, 1, 2] := by
  have hlist : sprig.along 2 .ancestor ++ sprig.along 2 .descendant ++ sprig.along 2 .preceding ++
      sprig.along 2 .following = [1, 0, 3, 4] := by decide
  obtain ⟨_, hmem, haxes⟩ :=
    isTree_sprig.axes_partition attributesApart_sprig (Finset.mem_univ 2)
  exact ⟨hlist, hlist ▸ hmem, haxes .ancestorOrSelf⟩

end HostTree

end ReactiveForm
