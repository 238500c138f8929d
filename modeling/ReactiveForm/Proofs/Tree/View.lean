import ReactiveForm.Document.Axes
import ReactiveForm.Proofs.Tree.WellFormed
import ReactiveForm.Tree.View

/-!
# The document of a well-formed tree

The nodes that expressions see of a well-formed tree stand below the document node, every axis
leads from one of them to others, and document order is linear on them.
-/

set_option autoImplicit false

namespace ReactiveForm.Tree

/-- The node belongs to the document of the tree. The text of a leaf does so even while it is
empty. -/
def Shows (t : Tree) : ViewNode → Prop
  | .document => True
  | .element id => t.contains id ∧ t.isRange id = false
  | .text id => t.isLeaf id

variable {t : Tree}

theorem contains_iff {id : NodeId} : t.contains id ↔ ∃ n, t.get? id = some n :=
  Arena.contains_iff

theorem shows_of_isLeaf {id : NodeId} (hl : t.isLeaf id) : t.Shows (.element id) := by
  obtain ⟨n, hn, htype⟩ := isLeaf_iff.mp hl
  refine ⟨contains_iff.mpr ⟨n, hn⟩, ?_⟩
  cases hr : n.definition.type <;> simp_all [NodeType.isLeaf, isRange, Node.isRange]

@[simp] theorem document_parent (x : ViewNode) : t.document.parent x = t.viewParent x := rfl

@[simp] theorem document_children (x : ViewNode) : t.document.children x = t.viewChildren x := rfl

@[simp] theorem document_kind (x : ViewNode) : t.document.kind x = viewKind x := rfl

namespace WellFormed

variable (h : t.WellFormed)

include h

theorem shows_root : t.Shows (.element t.root) := by
  obtain ⟨n, hn, _⟩ := h.root_type
  exact ⟨contains_iff.mpr ⟨n, hn⟩, h.isRange_root⟩

/-! ## Parents and children -/

/-- The parent of an element is an element: a range lies in no other range. -/
theorem outerNode_cases {id q : NodeId} (hq : t.outerNode id = some q) :
    ∃ p, t.parent id = some p ∧
      (t.isRange p = false ∧ q = p ∨ t.isRange p ∧ t.parent p = some q ∧ t.isRange q = false) := by
  unfold outerNode at hq
  cases hp : t.parent id with
  | none => simp [hp] at hq
  | some p =>
    refine ⟨p, rfl, ?_⟩
    simp only [hp] at hq
    by_cases hr : t.isRange p
    · rw [if_pos hr] at hq
      refine .inr ⟨hr, hq, ?_⟩
      by_contra hrange
      have hno := h.isRange_child hq (by simpa using hrange)
      simp [hr] at hno
    · rw [if_neg hr] at hq
      exact .inl ⟨by simpa using hr, (Option.some.inj hq).symm⟩

theorem shows_viewParent {x p : ViewNode} (hx : t.Shows x) (hp : t.viewParent x = some p) :
    t.Shows p := by
  cases x with
  | document => exact absurd hp (by simp [viewParent])
  | text id =>
    obtain rfl : ViewNode.element id = p := Option.some.inj hp
    exact shows_of_isLeaf hx
  | element id =>
    simp only [viewParent] at hp
    split at hp
    · obtain rfl := Option.some.inj hp
      trivial
    · obtain ⟨q, hq, rfl⟩ := Option.map_eq_some_iff.mp hp
      obtain ⟨r, hr, ⟨hrange, rfl⟩ | ⟨_, hparent, hrange⟩⟩ := h.outerNode_cases hq
      · exact ⟨contains_iff.mpr (h.connected.get?_parent hr), hrange⟩
      · exact ⟨contains_iff.mpr (h.connected.get?_parent hparent), hrange⟩

omit h in
theorem outerNode_of_parent {id p : NodeId} (hp : t.parent id = some p) :
    t.outerNode id = if t.isRange p then t.parent p else some p := by
  simp only [outerNode, hp]

/-- The elements below an element are those that have it for their parent. -/
theorem mem_innerNodes {id c : NodeId} (hid : t.isRange id = false) :
    c ∈ t.innerNodes id ↔ t.isRange c = false ∧ t.outerNode c = some id := by
  rw [innerNodes, List.mem_flatMap]
  constructor
  · rintro ⟨d, hd, hc⟩
    have hparent := h.linked.mp hd
    by_cases hr : t.isRange d
    · rw [if_pos hr] at hc
      have hcd := h.linked.mp hc
      exact ⟨h.isRange_child hcd hr, by rw [outerNode_of_parent hcd, if_pos hr, hparent]⟩
    · rw [if_neg hr] at hc
      obtain rfl := List.mem_singleton.mp hc
      exact ⟨by simpa using hr, by rw [outerNode_of_parent hparent, if_neg (by simp [hid])]⟩
  · rintro ⟨hc, hq⟩
    obtain ⟨p, hp, ⟨_, rfl⟩ | ⟨hr, hparent, _⟩⟩ := h.outerNode_cases hq
    · exact ⟨c, h.linked.mpr hp, by simp [hc]⟩
    · exact ⟨p, h.linked.mpr hparent, by rw [if_pos hr]; exact h.linked.mpr hp⟩

theorem viewParent_of_mem {x y : ViewNode} (hx : t.Shows x) (hy : y ∈ t.viewChildren x) :
    t.Shows y ∧ t.viewParent y = some x := by
  cases x with
  | document =>
    obtain rfl := List.mem_singleton.mp hy
    exact ⟨h.shows_root, by simp [viewParent]⟩
  | text id => exact absurd hy List.not_mem_nil
  | element id =>
    simp only [viewChildren] at hy
    by_cases hl : t.isLeaf id
    · rw [if_pos hl] at hy
      by_cases he : (t.text id).isEmpty
      · rw [if_pos he] at hy
        exact absurd hy List.not_mem_nil
      · rw [if_neg he] at hy
        obtain rfl := List.mem_singleton.mp hy
        exact ⟨hl, rfl⟩
    · rw [if_neg hl] at hy
      obtain ⟨c, hc, rfl⟩ := List.mem_map.mp hy
      obtain ⟨hrange, houter⟩ := (h.mem_innerNodes hx.2).mp hc
      obtain ⟨p, hp, _⟩ := h.outerNode_cases houter
      obtain ⟨n, hn, _⟩ := get?_of_parent hp
      have hroot : c ≠ t.root := by
        rintro rfl
        simp [h.connected.parent_root] at hp
      exact ⟨⟨contains_iff.mpr ⟨n, hn⟩, hrange⟩, by simp [viewParent, hroot, houter]⟩

/-- A node is listed by its parent, unless it is the text of a leaf. -/
theorem mem_viewChildren {x p : ViewNode} (hx : t.Shows x) (hp : t.viewParent x = some p) :
    x ∈ t.viewChildren p ∨ ∃ id, x = .text id ∧ p = .element id := by
  cases x with
  | document => exact absurd hp (by simp [viewParent])
  | text id => exact .inr ⟨id, rfl, (Option.some.inj hp).symm⟩
  | element id =>
    left
    simp only [viewParent] at hp
    split at hp
    next hroot =>
      obtain rfl := Option.some.inj hp
      exact List.mem_singleton.mpr (by rw [hroot])
    next =>
      obtain ⟨q, hq, rfl⟩ := Option.map_eq_some_iff.mp hp
      obtain ⟨r, hr, hcases⟩ := h.outerNode_cases hq
      have hrange : t.isRange q = false := by
        rcases hcases with ⟨hrange, rfl⟩ | ⟨_, _, hrange⟩ <;> exact hrange
      have hinner : id ∈ t.innerNodes q := (h.mem_innerNodes hrange).mpr ⟨hx.2, hq⟩
      have hleaf : ¬ t.isLeaf q := by
        intro hl
        simp [innerNodes, h.children_of_isLeaf hl] at hinner
      simp only [viewChildren, if_neg hleaf]
      exact List.mem_map_of_mem hinner

theorem not_isLeaf_of_outerNode {id q : NodeId} (hq : t.outerNode id = some q) :
    t.isLeaf q = false := by
  by_contra hl
  have hnil := h.children_of_isLeaf (by simpa using hl)
  obtain ⟨p, hp, ⟨_, rfl⟩ | ⟨_, hparent, _⟩⟩ := h.outerNode_cases hq
  · exact absurd (h.linked.mpr hp) (by simp [hnil])
  · exact absurd (h.linked.mpr hparent) (by simp [hnil])

/-- The text of a leaf has no siblings. -/
theorem eq_text_of_viewParent {id : NodeId} {x : ViewNode} (hl : t.isLeaf id) (hx : t.Shows x)
    (hp : t.viewParent x = some (.element id)) : x = .text id := by
  cases x with
  | document => exact absurd hp (by simp [viewParent])
  | text j =>
    obtain rfl : j = id := by simpa [viewParent] using hp
    rfl
  | element j =>
    simp only [viewParent] at hp
    split at hp
    · exact absurd hp (by simp)
    · obtain ⟨q, hq, hqid⟩ := Option.map_eq_some_iff.mp hp
      obtain rfl : q = id := ViewNode.element.inj hqid
      exact absurd hl (by simp [h.not_isLeaf_of_outerNode hq])

/-! ## Document order -/

theorem view_depth {n : Nat} {id : NodeId} (hn : t.links.AtDepth t.root n id)
    (hid : t.isRange id = false) :
    ∃ k ≤ n + 1, t.document.AtDepth .document k (.element id) := by
  induction n using Nat.strongRecOn generalizing id with
  | ind n ih =>
    by_cases hroot : id = t.root
    · exact ⟨1, by omega, .document, by simp [viewParent, hroot], rfl⟩
    · cases n with
      | zero => exact absurd hn hroot
      | succ n =>
        obtain ⟨p, hp, hn⟩ := hn
        -- an instance stands two levels below the element that is its parent
        have hstep {q : NodeId} {m : Nat} (hm : m ≤ n) (hq : t.links.AtDepth t.root m q)
            (hrange : t.isRange q = false) (houter : t.outerNode id = some q) :
            ∃ k ≤ n + 1 + 1, t.document.AtDepth .document k (.element id) := by
          obtain ⟨k, hk, hdepth⟩ := ih m (by omega) hq hrange
          exact ⟨k + 1, by omega, .element q, by simp [viewParent, hroot, houter], hdepth⟩
        have houter := outerNode_of_parent hp
        by_cases hr : t.isRange p
        · rw [if_pos hr] at houter
          cases n with
          | zero =>
            obtain rfl := hn
            simp [h.isRange_root] at hr
          | succ n =>
            obtain ⟨q, hq, hn⟩ := hn
            have hrange : t.isRange q = false := by
              by_contra hrange
              have hno := h.isRange_child hq (by simpa using hrange)
              simp [hr] at hno
            exact hstep (Nat.le_succ n) hn hrange (houter.trans hq)
        · rw [if_neg hr] at houter
          exact hstep (Nat.le_refl n) hn (by simpa using hr) houter

theorem shows_depth {x : ViewNode} (hx : t.Shows x) :
    ∃ n ≤ t.arena.size + 2, t.document.AtDepth .document n x := by
  have element {id : NodeId} (hx : t.Shows (.element id)) :
      ∃ n ≤ t.arena.size + 1, t.document.AtDepth .document n (.element id) := by
    obtain ⟨n, hn⟩ := contains_iff.mp hx.1
    obtain ⟨depth, hdepth⟩ := h.rooted hn
    obtain ⟨k, hk, hview⟩ := h.view_depth hdepth hx.2
    have hlt := h.connected.depth_lt_size hdepth ⟨n, hn⟩
    exact ⟨k, by omega, hview⟩
  cases x with
  | document => exact ⟨0, by omega, rfl⟩
  | element id =>
    obtain ⟨n, hn, hdepth⟩ := element hx
    exact ⟨n, by omega, hdepth⟩
  | text id =>
    obtain ⟨n, hn, hdepth⟩ := element (shows_of_isLeaf hx)
    exact ⟨n + 1, by omega, .element id, rfl, hdepth⟩

theorem rootedOn_document : t.document.toHostTree.RootedOn .document t.Shows where
  top_parent := rfl
  closed := h.shows_viewParent
  depth := h.shows_depth
  listed := by
    intro x y p hx hy hxp hyp hxy
    have listed {z w : ViewNode} (hz : t.Shows z) (hw : t.Shows w)
        (hzp : t.viewParent z = some p) (hwp : t.viewParent w = some p) (hne : z ≠ w) :
        z ∈ t.viewChildren p := by
      rcases h.mem_viewChildren hz hzp with hm | ⟨id, rfl, rfl⟩
      · exact hm
      · exact absurd (h.eq_text_of_viewParent hz hw hwp).symm hne
    exact ⟨listed hx hy hxp hyp hxy, listed hy hx hyp hxp (Ne.symm hxy)⟩

theorem linearOn_order : LinearOn t.Shows t.document.order :=
  h.rootedOn_document.linearOn_compareByAncestry

end WellFormed

end ReactiveForm.Tree
