import ReactiveForm.Proofs.Document.Preorder
import ReactiveForm.Proofs.Tree.Entry

/-!
# Trees as documents

Expressions ask for parents, for children and for texts, and each answer is found in its own way:
upwards a range is passed over, downwards its instances are spliced in, and texts are collected from
the live tree. In a well-formed tree the three answers describe one document.
-/

set_option autoImplicit false

namespace ReactiveForm

theorem join_flatMap {α : Type} (f : α → List String) (xs : List α) :
    String.join (xs.flatMap f) = String.join (xs.map fun x => String.join (f x)) := by
  induction xs with
  | nil => rfl
  | cons x xs ih => rw [List.flatMap_cons, String.join_append, ih, List.map_cons, String.join_cons]

theorem join_singleton (s : String) : String.join [s] = s := by
  rw [String.join_cons, String.join_nil, String.append_empty]

namespace Tree

/-- The node can be reached from the document node by way of children. -/
def Seen (t : Tree) (x : ViewNode) : Prop := t.document.Reaches .document x

/-- What stands for a node among the children of its parent. -/
def spread (t : Tree) (id : NodeId) : List NodeId := if t.isRange id then t.children id else [id]

/-- The texts at and below a node, in the order of the document. -/
def texts (t : Tree) (x : ViewNode) : List ViewNode := (t.document.subtree x).filter ViewNode.isText

/-- The texts at and below a node, one after the other. -/
def joined (t : Tree) (x : ViewNode) : String :=
  String.join ((t.texts x).map t.document.stringValue)

/-- What expressions see of the tree is one document that shows it faithfully. -/
structure Faithful (t : Tree) : Prop where
  parent : ∀ {x}, t.Seen x → (t.document.parent x = none ↔ x = .document)
  children : ∀ {x y}, t.Seen x → t.Seen y →
    (y ∈ t.document.children x ↔ t.document.parent y = some x)
  nodup_children : ∀ {x}, t.Seen x → (t.document.children x).Nodup
  /-- Every node is listed once in the whole document. -/
  listed : (t.document.subtree .document).Nodup ∧
    ∀ x, x ∈ t.document.subtree .document ↔ t.Seen x
  element : ∀ {id}, t.Seen (.element id) ↔ t.contains id ∧ t.isRange id = false
  text : ∀ {id}, t.Seen (.text id) ↔ t.isLeaf id ∧ t.text id ≠ ""
  /-- The instances of a range stand in its place. -/
  instances : ∀ {range}, t.isRange range → ∃ p before after, t.parent range = some p ∧
    t.Seen (.element p) ∧ t.children p = before ++ range :: after ∧
    t.document.children (.element p)
      = (before.flatMap t.spread ++ t.children range ++ after.flatMap t.spread).map .element
  /-- The texts below a node, in document order, make up its string value. -/
  stringValue : ∀ {x}, t.Seen x → Ascends t.document.order (t.texts x) ∧
    (∀ y, y ∈ t.texts x ↔ y.isText ∧ t.document.Reaches x y) ∧
    t.document.stringValue x = t.joined x

/-- The nodes of the document. -/
def Present (t : Tree) : ViewNode → Prop
  | .text id => t.isLeaf id ∧ t.text id ≠ ""
  | x => t.Shows x

variable {t : Tree}

theorem Present.shows {x : ViewNode} (hx : t.Present x) : t.Shows x := by
  cases x with
  | text id => exact hx.1
  | document | element => exact hx

theorem viewParent_ne_text (x : ViewNode) (id : NodeId) : t.viewParent x ≠ some (.text id) := by
  cases x with
  | document | text _ => simp [viewParent]
  | element c =>
    simp only [viewParent]
    split
    · simp
    · simp

namespace WellFormed

variable (h : t.WellFormed)

include h

/-! ## The links of the document -/

theorem nodup_innerNodes {id : NodeId} (hid : t.isRange id = false) : (t.innerNodes id).Nodup := by
  refine List.nodup_flatMap.mpr ⟨?_, (h.distinct id).imp_of_mem fun {c d} hc hd hne => ?_⟩
  · intro c _
    split
    · exact h.distinct c
    · exact List.nodup_singleton c
  -- what stands for a child has the child above it, or is the child itself
  · have hplace {c x : NodeId} (hc : c ∈ t.children id)
        (hx : x ∈ if t.isRange c then t.children c else [c]) :
        (t.isRange c ∧ t.parent x = some c) ∨ x = c ∧ t.parent x = some id := by
      split at hx
      next hr => exact .inl ⟨hr, h.linked.mp hx⟩
      next =>
        obtain rfl := List.mem_singleton.mp hx
        exact .inr ⟨rfl, h.linked.mp hc⟩
    intro x hxc hxd
    rcases hplace hc hxc with ⟨hr, hp⟩ | ⟨rfl, hp⟩ <;> rcases hplace hd hxd with ⟨hr', hp'⟩ | ⟨heq, hp'⟩
    · exact hne (Option.some.inj (hp.symm.trans hp'))
    · obtain rfl : c = id := Option.some.inj (hp.symm.trans hp')
      simp [hid] at hr
    · obtain rfl : id = d := Option.some.inj (hp.symm.trans hp')
      simp [hid] at hr'
    · exact hne heq

theorem mem_children_document {x y : ViewNode} (hx : t.Present x) :
    y ∈ t.viewChildren x ↔ t.Present y ∧ t.viewParent y = some x := by
  constructor
  · intro hy
    obtain ⟨hshows, hparent⟩ := h.viewParent_of_mem hx.shows hy
    refine ⟨?_, hparent⟩
    cases y with
    | document | element => exact hshows
    | text id =>
      refine ⟨hshows, fun hempty => ?_⟩
      obtain rfl : ViewNode.element id = x := Option.some.inj hparent
      have hleaf : t.isLeaf id := hshows
      simp [viewChildren, hleaf, hempty] at hy
  · rintro ⟨hy, hp⟩
    rcases h.mem_viewChildren hy.shows hp with hm | ⟨id, rfl, rfl⟩
    · exact hm
    · simp [viewChildren, hy.1, hy.2]

theorem treeOn_document : t.document.TreeOn .document t.Present where
  top_mem := trivial
  top_parent := rfl
  closed := by
    intro x p hx hp
    have hshows := h.shows_viewParent hx.shows hp
    cases p with
    | document | element => exact hshows
    | text id => exact absurd hp (viewParent_ne_text x id)
  depth hx := h.shows_depth hx.shows
  mem_children := h.mem_children_document
  nodup_children := by
    intro x hx
    cases x with
    | document => exact List.nodup_singleton _
    | text id => exact List.nodup_nil
    | element id =>
      simp only [document_children, viewChildren]
      split
      · split
        · exact List.nodup_nil
        · exact List.nodup_singleton _
      · exact (h.nodup_innerNodes hx.2).map fun _ _ heq => ViewNode.element.inj heq

theorem seen_iff {x : ViewNode} : t.Seen x ↔ t.Present x := h.treeOn_document.mem_iff_reaches.symm

theorem treeOn_links : t.links.TreeOn t.root fun id => t.contains id where
  top_mem := by
    obtain ⟨n, hn, _⟩ := h.root_type
    exact contains_iff.mpr ⟨n, hn⟩
  top_parent := h.connected.parent_root
  closed _ hp := contains_iff.mpr (h.connected.get?_parent hp)
  depth := by
    intro id hid
    obtain ⟨n, hn⟩ := contains_iff.mp hid
    obtain ⟨depth, hdepth⟩ := h.rooted hn
    exact ⟨depth, Nat.le_of_lt (h.connected.depth_lt_size hdepth ⟨n, hn⟩), hdepth⟩
  mem_children := by
    intro p c _
    refine h.linked.trans ⟨fun hp => ⟨?_, hp⟩, And.right⟩
    obtain ⟨n, hn, _⟩ := get?_of_parent hp
    exact contains_iff.mpr ⟨n, hn⟩
  nodup_children := fun {p} _ => h.distinct p

/-! ## Texts -/

/-- The text of a node is its own text and the texts of its children. -/
theorem text_eq {id : NodeId} (hid : t.contains id) :
    t.text id = (t.value? id).getD "" ++ String.join ((t.children id).map t.text) := by
  have hsubtree : t.subtree id = id :: (t.children id).flatMap t.subtree :=
    h.treeOn_links.subtree_eq hid
  have hbelow : String.join (((t.children id).flatMap t.subtree).filterMap t.value?)
      = String.join ((t.children id).map t.text) := by
    rw [List.filterMap_flatMap, join_flatMap]
    rfl
  rw [text, hsubtree]
  cases hvalue : t.value? id with
  | none => rw [List.filterMap_cons_none hvalue, hbelow, Option.getD_none, String.empty_append]
  | some value => rw [List.filterMap_cons_some hvalue, String.join_cons, hbelow, Option.getD_some]

/-- A node that is no leaf has no text of its own. -/
theorem text_inner (hfilled : t.Filled) {id : NodeId} (hid : t.contains id)
    (hl : t.isLeaf id = false) : t.text id = String.join ((t.children id).map t.text) := by
  obtain ⟨n, hn⟩ := contains_iff.mp hid
  have hleaf : n.definition.type.isLeaf = false := by
    simpa [isLeaf, hn, Definition.isLeaf] using hl
  have hinner : n.content = .inner := Content.eq_inner_of_suits (hfilled hn) hleaf
  have hvalue : t.value? id = none := by simp [value?, content?, hn, hinner, Content.text?]
  rw [h.text_eq hid, hvalue, Option.getD_none, String.empty_append]

/-- The texts of a node are those of its children, and the node itself if it is a text. -/
theorem texts_eq {x : ViewNode} (hx : t.Present x) :
    t.texts x = (if x.isText then [x] else []) ++ (t.viewChildren x).flatMap t.texts := by
  have hsubtree : t.document.subtree x = x :: (t.viewChildren x).flatMap t.document.subtree :=
    h.treeOn_document.subtree_eq hx
  rw [texts, hsubtree, List.filter_cons, List.filter_flatMap]
  split <;> rfl

theorem joined_eq {x : ViewNode} (hx : t.Present x) (htext : x.isText = false) :
    t.joined x = String.join ((t.viewChildren x).map t.joined) := by
  rw [joined, h.texts_eq hx, htext, if_neg nofun, List.nil_append, List.map_flatMap, join_flatMap]
  rfl

theorem joined_text {id : NodeId} (hid : t.Present (.text id)) :
    t.joined (.text id) = t.text id := by
  have htexts : t.texts (.text id) = [.text id] := h.texts_eq hid
  rw [joined, htexts, List.map_singleton, join_singleton]
  rfl

theorem joined_leaf {id : NodeId} (hl : t.isLeaf id) : t.joined (.element id) = t.text id := by
  have helement : t.Present (.element id) := shows_of_isLeaf hl
  rw [h.joined_eq helement rfl, viewChildren, if_pos hl]
  split
  next hempty => simpa [String.isEmpty_iff] using hempty.symm
  next hne =>
    have hpresent : t.Present (.text id) := ⟨hl, by simpa [String.isEmpty_iff] using hne⟩
    rw [List.map_singleton, h.joined_text hpresent, join_singleton]

/-- No instance is a range, so each stands for itself. -/
theorem innerNodes_range {id : NodeId} (hr : t.isRange id) : t.innerNodes id = t.children id := by
  have hself : ∀ c ∈ t.children id, (if t.isRange c then t.children c else [c]) = [c] := by
    intro c hc
    rw [if_neg (by simp [h.isRange_child (h.linked.mp hc) hr])]
  rw [innerNodes, List.flatMap_congr hself, List.flatMap_singleton']

/-- The text of a live node is what is joined from all that stands for it in the document. -/
theorem text_eq_joined (hfilled : t.Filled) {id : NodeId} (hid : t.contains id) :
    t.text id = String.join ((t.spread id).map fun i => t.joined (.element i)) := by
  refine h.treeOn_links.induction
    (P := fun id => t.text id = String.join ((t.spread id).map fun i => t.joined (.element i))) ?_ hid
  intro id hid ih
  have hbelow : (t.children id).map t.text
      = (t.children id).map fun c => String.join ((t.spread c).map fun i => t.joined (.element i)) :=
    List.map_congr_left ih
  have hinner : String.join ((t.children id).map t.text)
      = String.join ((t.innerNodes id).map fun i => t.joined (.element i)) := by
    rw [hbelow, innerNodes, List.map_flatMap, join_flatMap]
    rfl
  by_cases hr : t.isRange id
  · have hleaf : t.isLeaf id = false := by
      by_contra hl
      have hshows := shows_of_isLeaf (by simpa using hl)
      simp [Shows, hr] at hshows
    rw [h.text_inner hfilled hid hleaf, hinner, h.innerNodes_range hr, spread, if_pos hr]
  · rw [spread, if_neg hr, List.map_singleton, join_singleton]
    by_cases hl : t.isLeaf id
    · exact (h.joined_leaf hl).symm
    · have hpresent : t.Present (.element id) := ⟨hid, by simpa using hr⟩
      rw [h.text_inner hfilled hid (by simpa using hl), hinner, h.joined_eq hpresent rfl,
        viewChildren, if_neg hl, List.map_map]
      rfl

theorem stringValue_eq_joined (hfilled : t.Filled) {x : ViewNode} (hx : t.Present x) :
    t.document.stringValue x = t.joined x := by
  have helement {id : NodeId} (hid : t.Present (.element id)) :
      t.text id = t.joined (.element id) := by
    rw [h.text_eq_joined hfilled hid.1, spread, if_neg (by simp [hid.2]), List.map_singleton,
      join_singleton]
  cases x with
  | text id => exact (h.joined_text hx).symm
  | element id => exact helement hx
  | document =>
    have hroot : t.Present (.element t.root) := h.shows_root
    rw [h.joined_eq hx rfl, viewChildren, List.map_singleton, join_singleton]
    exact helement hroot

/-! ## Faithfulness -/

theorem children_eq_of_isRange {range : NodeId} (hr : t.isRange range) :
    ∃ p before after, t.parent range = some p ∧ t.Seen (.element p) ∧
      t.children p = before ++ range :: after ∧
      t.document.children (.element p)
        = (before.flatMap t.spread ++ t.children range ++ after.flatMap t.spread).map .element := by
  obtain ⟨n, hn, _⟩ := isRange_iff.mp hr
  obtain ⟨depth, hdepth⟩ := h.rooted hn
  cases depth with
  | zero =>
    obtain rfl := hdepth
    simp [h.isRange_root] at hr
  | succ depth =>
    obtain ⟨p, hp, _⟩ := hdepth
    have hmem : range ∈ t.children p := h.linked.mpr hp
    obtain ⟨before, after, hsplit⟩ := List.append_of_mem hmem
    have hplain : t.isRange p = false := by
      by_contra hrange
      simp [h.isRange_child hp (by simpa using hrange)] at hr
    have hseen : t.Seen (.element p) :=
      h.seen_iff.mpr ⟨contains_iff.mpr (h.connected.get?_parent hp), hplain⟩
    have hleaf : ¬t.isLeaf p := by
      intro hl
      simp [h.children_of_isLeaf hl] at hmem
    refine ⟨p, before, after, hp, hseen, hsplit, ?_⟩
    have hinner : t.innerNodes p = (before ++ range :: after).flatMap t.spread := by
      rw [← hsplit]
      rfl
    rw [document_children, viewChildren, if_neg hleaf, hinner, List.flatMap_append,
      List.flatMap_cons, spread, if_pos hr, List.append_assoc]

theorem faithful (hfilled : t.Filled) : t.Faithful := by
  have htree := h.treeOn_document
  have hascends {x : ViewNode} (hx : t.Present x) :
      Ascends t.document.order (t.document.subtree x) :=
    HostTree.ascends_subtree (t := t.document.toHostTree) htree hx
  exact {
    parent := fun hx => htree.parent_eq_none_iff (h.seen_iff.mp hx)
    children := fun hx hy =>
      (htree.mem_children (h.seen_iff.mp hx)).trans (and_iff_right (h.seen_iff.mp hy))
    nodup_children := fun hx => htree.nodup_children (h.seen_iff.mp hx)
    listed := by
      have hlisted : ∀ x, x ∈ t.document.subtree .document ↔ t.Seen x :=
        fun _ => htree.mem_subtree htree.top_mem
      refine ⟨(hascends htree.top_mem).nodup h.linearOn_order fun x hx => ?_, hlisted⟩
      exact (h.seen_iff.mp ((hlisted x).mp hx)).shows
    element := h.seen_iff
    text := h.seen_iff
    instances := h.children_eq_of_isRange
    stringValue := by
      intro x hx
      have hpresent := h.seen_iff.mp hx
      refine ⟨(hascends hpresent).filter _, fun y => ?_, h.stringValue_eq_joined hfilled hpresent⟩
      rw [texts, List.mem_filter, htree.mem_subtree hpresent, and_comm] }

end WellFormed

end Tree

end ReactiveForm
