import ReactiveForm.Proofs.Tree.View

/-!
# Trees with the same frame

Two live trees that differ in nothing but the contents of their leaves have the same elements in
the same places. Only the texts below leaves come and go, and these can differ only where the
contents do.
-/

set_option autoImplicit false

namespace ReactiveForm

theorem Links.ancestorsUpTo_congr {N : Type} {t t' : Links N} (hp : t'.parent = t.parent)
    (n : Nat) (x : N) : t'.ancestorsUpTo n x = t.ancestorsUpTo n x := by
  induction n generalizing x with
  | zero => rfl
  | succ n ih => simp only [Links.ancestorsUpTo, hp, ih]

/-- A node without its content and its status. -/
def Node.frame (n : Node) : Definition × Option NodeId × List NodeId :=
  (n.definition, n.parent, n.children)

namespace ViewNode

def isText : ViewNode → Bool
  | text _ => true
  | _ => false

end ViewNode

namespace Tree

/-- The trees differ in the contents and the status of nodes at most. -/
structure SameLinks (t t' : Tree) : Prop where
  root : t'.root = t.root
  size : t'.arena.size = t.arena.size
  nodes : ∀ id, (t'.get? id).map (·.frame) = (t.get? id).map (·.frame)

namespace SameLinks

theorem refl (t : Tree) : t.SameLinks t := ⟨rfl, rfl, fun _ => rfl⟩

theorem trans {t t' t'' : Tree} (h : t.SameLinks t') (h' : t'.SameLinks t'') : t.SameLinks t'' where
  root := h'.root.trans h.root
  size := h'.size.trans h.size
  nodes id := (h'.nodes id).trans (h.nodes id)

variable {t t' : Tree} (h : t.SameLinks t')

include h

theorem get?_cases (id : NodeId) : (t.get? id = none ∧ t'.get? id = none) ∨
    ∃ n n', t.get? id = some n ∧ t'.get? id = some n' ∧ n'.definition = n.definition ∧
      n'.parent = n.parent ∧ n'.children = n.children := by
  have hframe := h.nodes id
  cases hn : t.get? id with
  | none =>
    rw [hn, Option.map_none, Option.map_eq_none_iff] at hframe
    exact .inl ⟨rfl, hframe⟩
  | some n =>
    rw [hn, Option.map_some, Option.map_eq_some_iff] at hframe
    obtain ⟨n', hn', heq⟩ := hframe
    simp only [Node.frame, Prod.mk.injEq] at heq
    exact .inr ⟨n, n', rfl, hn', heq⟩

theorem parent_eq (id : NodeId) : t'.parent id = t.parent id := by
  rcases h.get?_cases id with ⟨hn, hn'⟩ | ⟨n, n', hn, hn', _, hp, _⟩ <;> simp [parent, *]

theorem children_eq (id : NodeId) : t'.children id = t.children id := by
  rcases h.get?_cases id with ⟨hn, hn'⟩ | ⟨n, n', hn, hn', _, _, hc⟩ <;> simp [children, *]

theorem definition?_eq (id : NodeId) : t'.definition? id = t.definition? id := by
  rcases h.get?_cases id with ⟨hn, hn'⟩ | ⟨n, n', hn, hn', hd, _, _⟩ <;> simp [definition?, *]

theorem isRange_eq (id : NodeId) : t'.isRange id = t.isRange id := by
  rcases h.get?_cases id with ⟨hn, hn'⟩ | ⟨n, n', hn, hn', hd, _, _⟩ <;>
    simp [isRange, Node.isRange, *]

theorem isLeaf_eq (id : NodeId) : t'.isLeaf id = t.isLeaf id := by
  rcases h.get?_cases id with ⟨hn, hn'⟩ | ⟨n, n', hn, hn', hd, _, _⟩ <;> simp [isLeaf, *]

theorem links_eq : t'.links = t.links := by
  simp only [links, Links.mk.injEq, funext_iff]
  exact ⟨h.parent_eq, h.children_eq, h.size⟩

theorem ancestors_eq (id : NodeId) : t'.ancestors id = t.ancestors id := by
  rw [ancestors, ancestors, h.links_eq]

theorem subtree_eq (id : NodeId) : t'.subtree id = t.subtree id := by
  rw [subtree, subtree, h.links_eq]

theorem connected (hc : t.Connected) : t'.Connected where
  root_live := by
    obtain ⟨n, hn, hp⟩ := hc.root_live
    rcases h.get?_cases t.root with ⟨hnone, _⟩ | ⟨m, m', hm, hm', _, hparent, _⟩
    · exact nomatch hn.symm.trans hnone
    · obtain rfl : n = m := Option.some.inj (hn.symm.trans hm)
      exact ⟨m', by rw [h.root, hm'], by rw [hparent, hp]⟩
  linked := by
    intro p c
    rw [h.children_eq, h.parent_eq]
    exact hc.linked
  rooted := by
    intro id n' hn'
    rcases h.get?_cases id with ⟨_, hnone⟩ | ⟨n, _, hn, _⟩
    · exact nomatch hn'.symm.trans hnone
    · rw [h.links_eq, h.root]
      exact hc.rooted hn

end SameLinks

/-- The trees differ in the contents of leaves at most; the status of nodes does not count. -/
structure SameFrame (t t' : Tree) : Prop where
  root : t'.root = t.root
  size : t'.arena.size = t.arena.size
  nodes : ∀ id, (t'.get? id).map (·.frame) = (t.get? id).map (·.frame)
  inner : ∀ id, t.isLeaf id = false → t'.content? id = t.content? id

/-- The trees agree on all leaves at and below the live node of `x`. -/
def AgreeBelow (t t' : Tree) (x : ViewNode) : Prop :=
  ∀ id ∈ t.subtree (t.target x), t.isLeaf id → t'.content? id = t.content? id

instance (t t' : Tree) (x : ViewNode) : Decidable (t.AgreeBelow t' x) :=
  inferInstanceAs (Decidable (∀ id ∈ t.subtree (t.target x),
    t.isLeaf id → t'.content? id = t.content? id))

namespace SameFrame

variable {t t' : Tree} (h : t.SameFrame t')

include h

theorem sameLinks : t.SameLinks t' := ⟨h.root, h.size, h.nodes⟩

theorem get?_cases (id : NodeId) : (t.get? id = none ∧ t'.get? id = none) ∨
    ∃ n n', t.get? id = some n ∧ t'.get? id = some n' ∧ n'.definition = n.definition ∧
      n'.parent = n.parent ∧ n'.children = n.children :=
  h.sameLinks.get?_cases id

theorem parent_eq (id : NodeId) : t'.parent id = t.parent id := h.sameLinks.parent_eq id

theorem children_eq (id : NodeId) : t'.children id = t.children id := h.sameLinks.children_eq id

theorem definition?_eq (id : NodeId) : t'.definition? id = t.definition? id :=
  h.sameLinks.definition?_eq id

theorem isRange_eq (id : NodeId) : t'.isRange id = t.isRange id := h.sameLinks.isRange_eq id

theorem isLeaf_eq (id : NodeId) : t'.isLeaf id = t.isLeaf id := h.sameLinks.isLeaf_eq id

theorem ancestors_eq (id : NodeId) : t'.ancestors id = t.ancestors id :=
  h.sameLinks.ancestors_eq id

theorem subtree_eq (id : NodeId) : t'.subtree id = t.subtree id := h.sameLinks.subtree_eq id

theorem connected (hc : t.Connected) : t'.Connected := h.sameLinks.connected hc

theorem typed (ht : t.Typed) : t'.Typed where
  root_type := by
    obtain ⟨n, hn, htype⟩ := ht.root_type
    rcases h.get?_cases t.root with ⟨hnone, _⟩ | ⟨m, m', hm, hm', hd, _⟩
    · exact nomatch hn.symm.trans hnone
    · obtain rfl : n = m := Option.some.inj (hn.symm.trans hm)
      exact ⟨m', by rw [h.root, hm'], by rw [hd, htype]⟩
  holds := by
    intro p c m' n' hm' hn' hp
    rcases h.get?_cases p with ⟨_, hnone⟩ | ⟨m, m'', hm, hm'', hd, _, _⟩
    · exact nomatch hm'.symm.trans hnone
    rcases h.get?_cases c with ⟨_, hnone⟩ | ⟨n, n'', hn, hn'', hd', hparent, _⟩
    · exact nomatch hn'.symm.trans hnone
    obtain rfl : m' = m'' := Option.some.inj (hm'.symm.trans hm'')
    obtain rfl : n' = n'' := Option.some.inj (hn'.symm.trans hn'')
    rw [hd, hd']
    exact ht.holds hm hn (hparent.symm.trans hp)

theorem distinct (hd : ∀ p, (t.children p).Nodup) (p : NodeId) : (t'.children p).Nodup := by
  rw [h.children_eq]
  exact hd p

theorem wellFormed (hw : t.WellFormed) : t'.WellFormed :=
  (h.connected hw.connected).wellFormed (h.distinct hw.distinct) (h.typed hw.types)

theorem contains_eq (id : NodeId) : t'.contains id = t.contains id := by
  rcases h.get?_cases id with ⟨hn, hn'⟩ | ⟨n, n', hn, hn', _⟩ <;>
    simp [contains, Arena.contains, get?] at * <;> simp [*]

theorem shows_iff {x : ViewNode} : t'.Shows x ↔ t.Shows x := by
  cases x <;> simp only [Shows, h.contains_eq, h.isRange_eq, h.isLeaf_eq]

/-! ## The document -/

theorem target_eq (x : ViewNode) : t'.target x = t.target x := by
  cases x with
  | document => exact h.root
  | _ => rfl

theorem outerNode_eq (id : NodeId) : t'.outerNode id = t.outerNode id := by
  simp only [outerNode, h.parent_eq, h.isRange_eq]

theorem innerNodes_eq (id : NodeId) : t'.innerNodes id = t.innerNodes id := by
  simp only [innerNodes, h.children_eq, h.isRange_eq]

theorem viewParent_eq : t'.viewParent = t.viewParent := by
  funext x
  cases x <;> simp only [viewParent, h.root, h.outerNode_eq]

theorem viewName_eq : t'.viewName = t.viewName := by
  funext x
  cases x with
  | element id =>
    rcases h.get?_cases id with ⟨hn, hn'⟩ | ⟨n, n', hn, hn', hd, _, _⟩ <;> simp [viewName, *]
  | _ => rfl

/-- Texts are the same where the contents of the leaves are. -/
theorem text_eq {x : ViewNode} (hx : t.AgreeBelow t' x) :
    t'.text (t'.target x) = t.text (t.target x) := by
  have hvalues : ∀ id ∈ t.subtree (t.target x), t'.value? id = t.value? id := by
    intro id hid
    have hcontent : t'.content? id = t.content? id := by
      cases hl : t.isLeaf id with
      | true => exact hx id hid hl
      | false => exact h.inner id hl
    rw [value?, value?, hcontent]
  rw [text, text, h.target_eq, h.subtree_eq, List.filterMap_congr hvalues]

/-- Only leaves may list something else, and they list no more than a text. -/
theorem viewChildren_eq_or (x : ViewNode) :
    t'.viewChildren x = t.viewChildren x ∨
      ∃ id, x = .element id ∧ t.isLeaf id ∧
        t.viewChildren x ⊆ [.text id] ∧ t'.viewChildren x ⊆ [.text id] ∧
        (t.viewChildren x).length ≤ 1 ∧ (t'.viewChildren x).length ≤ 1 := by
  cases x with
  | document => exact .inl (by simp only [viewChildren, h.root])
  | text id => exact .inl rfl
  | element id =>
    by_cases hl : t.isLeaf id
    · have hleaf (s : Tree) (hs : s.isLeaf id) :
          s.viewChildren (.element id) = [] ∨ s.viewChildren (.element id) = [.text id] := by
        simp only [viewChildren, if_pos hs]
        split
        · exact .inl rfl
        · exact .inr rfl
      refine .inr ⟨id, rfl, hl, ?_⟩
      rcases hleaf t hl with hc | hc <;>
        rcases hleaf t' (by rwa [h.isLeaf_eq]) with hc' | hc' <;> simp [hc, hc']
    · exact .inl (by simp only [viewChildren, h.isLeaf_eq, if_neg hl, h.innerNodes_eq])

theorem viewChildren_eq {x : ViewNode} (hx : t.AgreeBelow t' x) :
    t'.viewChildren x = t.viewChildren x := by
  cases x with
  | document => simp only [viewChildren, h.root]
  | text id => rfl
  | element id =>
    have htext : t'.text id = t.text id := h.text_eq hx
    simp only [viewChildren, h.isLeaf_eq, h.innerNodes_eq, htext]

theorem symm : t'.SameFrame t where
  root := h.root.symm
  size := h.size.symm
  nodes id := (h.nodes id).symm
  inner id hl := (h.inner id (by rwa [← h.isLeaf_eq])).symm

theorem agreeBelow_symm {x : ViewNode} (hx : t.AgreeBelow t' x) : t'.AgreeBelow t x := by
  intro id hid hl
  rw [h.target_eq, h.subtree_eq] at hid
  rw [h.isLeaf_eq] at hl
  exact (hx id hid hl).symm

/-! ## Document order -/

theorem height_eq : t'.document.height = t.document.height :=
  congrArg (· + 2) h.size

theorem ancestors_view (x : ViewNode) : t'.document.ancestors x = t.document.ancestors x := by
  rw [Links.ancestors, Links.ancestors, h.height_eq]
  exact Links.ancestorsUpTo_congr h.viewParent_eq _ x

/-- Siblings stand in the same order: a leaf has no two nodes below it. -/
theorem compareSiblings_eq (p : ViewNode) {x y : ViewNode} (hxy : x ≠ y) :
    t'.document.compareSiblings p x y = t.document.compareSiblings p x y := by
  have alone {s : Tree} {z : ViewNode} (hs : s.viewChildren p ⊆ [z]) :
      s.document.compareSiblings p x y = compare x y := by
    have hnot : x ∉ s.viewChildren p ∨ y ∉ s.viewChildren p := by
      by_contra hboth
      obtain ⟨hx, hy⟩ := not_or.mp hboth
      rw [not_not] at hx hy
      exact hxy ((List.mem_singleton.mp (hs hx)).trans (List.mem_singleton.mp (hs hy)).symm)
    have hlisted : s.document.attributes p ++ s.document.children p = s.viewChildren p := rfl
    simp only [HostTree.compareSiblings, hlisted]
    rcases hnot with hnot | hnot
    · rw [List.idxOf?_eq_none_iff.mpr hnot]
    · rw [List.idxOf?_eq_none_iff.mpr hnot]
      cases (s.viewChildren p).idxOf? x <;> rfl
  rcases h.viewChildren_eq_or p with heq | ⟨id, _, _, hs, hs', _⟩
  · have hlisted : t'.document.attributes p ++ t'.document.children p
        = t.document.attributes p ++ t.document.children p := congrArg ([] ++ ·) heq
    simp only [HostTree.compareSiblings, hlisted]
  · rw [alone hs, alone hs']

theorem compareBranches_eq (ends : Ordering) (above : Option ViewNode) (xs ys : List ViewNode) :
    t'.document.compareBranches ends above xs ys = t.document.compareBranches ends above xs ys := by
  induction xs generalizing above ys with
  | nil => cases ys <;> rfl
  | cons x xs ih =>
    cases ys with
    | nil => rfl
    | cons y ys =>
      by_cases hxy : x = y
      · simp only [HostTree.compareBranches, if_pos hxy, ih]
      · cases above with
        | none => simp only [HostTree.compareBranches, if_neg hxy]
        | some p => simp only [HostTree.compareBranches, if_neg hxy, h.compareSiblings_eq p hxy]

theorem order_eq : t'.document.order = t.document.order := by
  funext x y
  have hbranch (z : ViewNode) : t'.document.branch z = t.document.branch z := by
    rw [Links.branch, Links.branch, h.ancestors_view]
  change t'.document.compareByAncestry x y = t.document.compareByAncestry x y
  simp only [HostTree.compareByAncestry, hbranch, h.compareBranches_eq]

theorem nodeSet_eq (xs : List ViewNode) : t'.document.nodeSet xs = t.document.nodeSet xs :=
  Document.nodeSet_congr h.order_eq xs

end SameFrame

end Tree

end ReactiveForm
