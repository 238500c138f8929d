import ReactiveForm.Proofs.Document.Axes
import ReactiveForm.Proofs.Tree.Frame

/-!
# Axes of two trees with the same frame

Along every axis two trees with the same frame show the same nodes, texts aside. A text below a
leaf is found in both trees where the trees agree on the leaf. Most axes lead to no texts at all,
and on them the two trees show just the same.
-/

set_option autoImplicit false

namespace ReactiveForm

namespace Axis

/-- Whether texts may be found along the axis from an element. -/
def reachesText : Axis → Bool
  | child | descendant | descendantOrSelf | following | preceding => true
  | _ => false

end Axis

namespace ViewNode

def isOutside (x : ViewNode) : Bool := !x.isText

end ViewNode

theorem Tree.document_owner (t : Tree) (x : ViewNode) : t.document.owner x = x := by
  cases x <;> rfl

namespace Tree.WellFormed

variable {t : Tree} (h : t.WellFormed)

include h

/-! ## Axes lead to nodes of the document -/

theorem closedOn_document : t.document.ClosedOn t.Shows where
  parent := h.shows_viewParent
  attributes _ hy := absurd hy List.not_mem_nil
  children hx hy := (h.viewParent_of_mem hx hy).1

end Tree.WellFormed

/-! ## The same axis in two trees -/

namespace Tree.SameFrame

variable {t t' : Tree} (h : t.SameFrame t')

include h

/-- Below a text there is nothing, so that functions on the children of a node agree outside texts
as soon as they do so on each child. -/
theorem flatMap_viewChildren (f f' : ViewNode → List ViewNode)
    (hf : ∀ y, (f' y).filter ViewNode.isOutside = (f y).filter ViewNode.isOutside)
    (htext : ∀ id, (f (.text id)).filter ViewNode.isOutside = []) (x : ViewNode) :
    ((t'.viewChildren x).flatMap f').filter ViewNode.isOutside
      = ((t.viewChildren x).flatMap f).filter ViewNode.isOutside := by
  rw [List.filter_flatMap, List.filter_flatMap]
  rcases h.viewChildren_eq_or x with heq | ⟨id, _, _, hall, hall', _⟩
  · rw [heq]
    exact List.flatMap_congr fun y _ => hf y
  · have hnil : ∀ y ∈ t.viewChildren x, (f y).filter ViewNode.isOutside = [] := by
      intro y hy
      rw [List.mem_singleton.mp (hall hy), htext]
    have hnil' : ∀ y ∈ t'.viewChildren x, (f' y).filter ViewNode.isOutside = [] := by
      intro y hy
      rw [List.mem_singleton.mp (hall' hy), hf, htext]
    rw [List.flatMap_eq_nil_iff.mpr hnil, List.flatMap_eq_nil_iff.mpr hnil']

omit h in
theorem subtreeUpTo_text (t : Tree) (n : Nat) (id : NodeId) :
    t.document.subtreeUpTo n (.text id) = [.text id] := by
  cases n <;> rfl

theorem subtreeUpTo_outside (n : Nat) (x : ViewNode) :
    (t'.document.subtreeUpTo n x).filter ViewNode.isOutside
      = (t.document.subtreeUpTo n x).filter ViewNode.isOutside := by
  induction n generalizing x with
  | zero => rfl
  | succ n ih =>
    have hbelow := h.flatMap_viewChildren _ _ ih (fun id => by rw [subtreeUpTo_text]; rfl) x
    simp only [Links.subtreeUpTo, document_children, List.filter_cons, hbelow]

theorem descendants_outside (x : ViewNode) :
    (t'.document.descendants x).filter ViewNode.isOutside
      = (t.document.descendants x).filter ViewNode.isOutside := by
  rw [Links.descendants, Links.descendants, h.height_eq]
  exact h.flatMap_viewChildren _ _ (h.subtreeUpTo_outside _)
    (fun id => by rw [subtreeUpTo_text]; rfl) x

omit h in
theorem around_alone {xs : List ViewNode} (hxs : xs.length ≤ 1) (x : ViewNode) :
    (match xs.idxOf? x with
      | none => (([] : List ViewNode), ([] : List ViewNode))
      | some i => (xs.take i, xs.drop (i + 1))) = ([], []) := by
  match xs, hxs with
  | [], _ => rfl
  | [y], _ =>
    by_cases hy : y = x
    · simp [hy]
    · simp [beq_eq_false_iff_ne.mpr hy]

/-- Texts have no siblings, and all others have the same in both trees. -/
theorem siblings_eq (x : ViewNode) : t'.document.siblings x = t.document.siblings x := by
  simp only [HostTree.siblings, document_kind, document_parent, document_children,
    h.viewParent_eq]
  split
  · rfl
  · rfl
  next p _ _ =>
    rcases h.viewChildren_eq_or p with heq | ⟨_, _, _, _, _, hone, hone'⟩
    · rw [heq]
    · exact (around_alone hone' x).trans (around_alone hone x).symm

/-- Texts aside, an axis leads to the same nodes. -/
theorem along_outside (x : ViewNode) (axis : Axis) :
    (t'.document.along x axis).filter ViewNode.isOutside
      = (t.document.along x axis).filter ViewNode.isOutside := by
  have hsubtree (y : ViewNode) : (t'.document.subtree y).filter ViewNode.isOutside
      = (t.document.subtree y).filter ViewNode.isOutside := by
    rw [Links.subtree, Links.subtree, h.height_eq]
    exact h.subtreeUpTo_outside _ y
  -- subtrees agree up to their texts, and the ancestors and siblings they hang from entirely
  cases axis with
  | child =>
    have hchildren := h.flatMap_viewChildren (fun y => [y]) (fun y => [y])
      (fun _ => rfl) (fun _ => rfl) x
    simpa [HostTree.along, List.flatMap_singleton'] using hchildren
  | descendant => exact h.descendants_outside x
  | descendantOrSelf =>
    simp only [HostTree.along, List.filter_cons, h.descendants_outside]
  | following =>
    simp only [HostTree.along, document_owner, if_true, HostTree.followingAll, h.ancestors_view,
      h.siblings_eq, List.filter_flatMap, hsubtree]
  | preceding =>
    simp only [HostTree.along, document_owner, HostTree.precedingAll, h.ancestors_view,
      h.siblings_eq, List.filter_flatMap, List.filter_reverse, hsubtree]
  | attributes | namespaces => rfl
  | self => rfl
  | followingSibling | precedingSibling => simp only [HostTree.along, h.siblings_eq]
  | parent => simp only [HostTree.along, document_parent, h.viewParent_eq]
  | ancestor | ancestorOrSelf => simp only [HostTree.along, h.ancestors_view]

theorem along_eq (x : ViewNode) {axis : Axis} (haxis : axis.reachesText = false) :
    t'.document.along x axis = t.document.along x axis := by
  cases axis with
  | child | descendant | descendantOrSelf | following | preceding => nomatch haxis
  | attributes | namespaces => rfl
  | self => rfl
  | followingSibling | precedingSibling => simp only [HostTree.along, h.siblings_eq]
  | parent => simp only [HostTree.along, document_parent, h.viewParent_eq]
  | ancestor | ancestorOrSelf => simp only [HostTree.along, h.ancestors_view]

theorem mem_viewChildren_iff {x c : ViewNode} (hc : c.isOutside) :
    c ∈ t'.viewChildren x ↔ c ∈ t.viewChildren x := by
  have hfilter := congrArg (c ∈ ·) (h.along_outside x .child)
  simpa [HostTree.along, List.mem_filter, hc] using hfilter

omit h in
theorem mem_viewChildren_text {x : ViewNode} {id : NodeId}
    (hm : ViewNode.text id ∈ t.viewChildren x) : x = .element id := by
  cases x with
  | document => simp [viewChildren] at hm
  | text j => simp [viewChildren] at hm
  | element j =>
    simp only [viewChildren] at hm
    split at hm
    · split at hm <;> simp_all
    · simp at hm

/-- A text that is found below a node is that node, or is found next to its leaf, and then in both
trees if they agree there. -/
theorem mem_subtreeUpTo_text {n : Nat} {x : ViewNode} {id : NodeId}
    (hm : ViewNode.text id ∈ t.document.subtreeUpTo n x) :
    x = .text id ∨ .element id ∈ t.document.subtreeUpTo n x ∧
      (t.AgreeBelow t' (.element id) → .text id ∈ t'.document.subtreeUpTo n x) := by
  induction n generalizing x with
  | zero => exact .inl (List.mem_singleton.mp hm).symm
  | succ n ih =>
    rcases List.mem_cons.mp hm with heq | hm
    · exact .inl heq.symm
    right
    obtain ⟨c, hc, hm⟩ := List.mem_flatMap.mp hm
    -- the text is a child of `x`, which is its element, or deeper, and then so is its element
    rcases ih hm with rfl | ⟨helement, hagree⟩
    · obtain rfl := mem_viewChildren_text hc
      refine ⟨List.mem_cons_self, ?_⟩
      intro ha
      have hc' : ViewNode.text id ∈ t'.viewChildren (.element id) := by
        rw [h.viewChildren_eq ha]
        exact hc
      apply List.mem_cons_of_mem
      exact List.mem_flatMap.mpr ⟨.text id, hc', by rw [subtreeUpTo_text]; exact List.mem_singleton_self _⟩
    · -- a text has nothing below it, so `c` is in both trees
      have houtside : c.isOutside := by
        cases c with
        | text j =>
          rw [subtreeUpTo_text] at helement
          exact nomatch List.mem_singleton.mp helement
        | _ => rfl
      refine ⟨List.mem_cons_of_mem _ (List.mem_flatMap.mpr ⟨c, hc, helement⟩), ?_⟩
      intro ha
      have hc' : c ∈ t'.viewChildren x := (h.mem_viewChildren_iff houtside).mpr hc
      exact List.mem_cons_of_mem _ (List.mem_flatMap.mpr ⟨c, hc', hagree ha⟩)

end Tree.SameFrame

end ReactiveForm
