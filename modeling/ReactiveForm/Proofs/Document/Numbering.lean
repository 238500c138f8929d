import ReactiveForm.Document.Markup
import ReactiveForm.Proofs.Document.Forest

/-!
# Numbers in document order

Document order, which is found by comparing two branches, is the order of the preorder listing. A
document from markup numbers its nodes in preorder, so there the numbers may be compared instead.
-/

set_option autoImplicit false

namespace ReactiveForm

/-- In an ascending list, nodes are ordered as their places are. -/
theorem Ascends.order_eq {N : Type} [DecidableEq N] {S : N → Prop} {order : N → N → Ordering}
    (h : LinearOn S order) {xs : List N} (hxs : Ascends order xs) (hS : ∀ x ∈ xs, S x) {x y : N}
    (hx : x ∈ xs) (hy : y ∈ xs) : order x y = compare (xs.idxOf x) (xs.idxOf y) := by
  have hi := List.idxOf_lt_length_of_mem hx
  have hj := List.idxOf_lt_length_of_mem hy
  have hlt := List.pairwise_iff_getElem.mp hxs
  rcases Nat.lt_trichotomy (xs.idxOf x) (xs.idxOf y) with hij | hij | hij
  · have hxy := hlt _ _ hi hj hij
    rw [List.getElem_idxOf hi, List.getElem_idxOf hj] at hxy
    rw [hxy, Nat.compare_eq_lt.mpr hij]
  · obtain rfl : x = y := (List.idxOf_inj hx).mp hij
    rw [(h.eq_iff (hS x hx) (hS x hx)).mpr rfl, Nat.compare_eq_eq.mpr rfl]
  · have hyx := hlt _ _ hj hi hij
    rw [List.getElem_idxOf hi, List.getElem_idxOf hj] at hyx
    rw [(h.gt_iff (hS x hx) (hS y hy)).mpr hyx, Nat.compare_eq_gt.mpr hij]

namespace HostTree

variable {N : Type} {t : HostTree N} {top : N} {S : N → Prop}

theorem mem_preorder_iff (h : t.full.TreeOn top S) {x : N} : x ∈ t.preorder top ↔ S x :=
  (h.mem_subtree h.top_mem).trans h.mem_iff_reaches.symm

/-- A node is listed before its attributes, and these before what the children hold. -/
theorem preorder_eq (h : t.full.TreeOn top S) {x : N} (hx : S x) :
    t.preorder x = x :: ((t.attributes x).flatMap t.preorder ++ (t.children x).flatMap t.preorder) := by
  rw [← List.flatMap_append]
  exact h.subtree_eq hx

variable [DecidableEq N] [Ord N]

/-- Document order compares places in the preorder listing. -/
theorem compareByAncestry_eq_idxOf (h : t.full.TreeOn top S) {x y : N} (hx : S x) (hy : S y) :
    t.compareByAncestry x y = compare ((t.preorder top).idxOf x) ((t.preorder top).idxOf y) :=
  (ascends_subtree h h.top_mem).order_eq (rootedOn_of_treeOn h).linearOn_compareByAncestry
    (fun _ hm => (mem_preorder_iff h).mp hm) ((mem_preorder_iff h).mpr hx)
    ((mem_preorder_iff h).mpr hy)

end HostTree

namespace Markup

/-! ## The nodes of a piece of markup -/

mutual

theorem length_entries (parent id : Nat) : (m : Markup) → (entries parent id m).length = m.size
  | .element _ attributes content => by
    simp only [entries, size, List.length_cons, List.length_append, List.length_map,
      length_entriesOf id _ content]
    omega
  | .text _ => rfl
  | .comment _ => rfl

theorem length_entriesOf (parent id : Nat) :
    (ms : List Markup) → (entriesOf parent id ms).length = sizes ms
  | [] => rfl
  | m :: ms => by
    rw [entriesOf, sizes, List.length_append, length_entries parent id m,
      length_entriesOf parent _ ms]

end

theorem size_pos (m : Markup) : 0 < m.size := by
  cases m with
  | element name attributes content => exact Nat.add_pos_left (Nat.add_pos_left Nat.one_pos _) _
  | text value => exact Nat.one_pos
  | comment value => exact Nat.one_pos

theorem depth_pos (m : Markup) : 0 < m.depth := by
  cases m with
  | element name attributes content => exact Nat.add_pos_left Nat.one_pos _
  | text value => exact Nat.one_pos
  | comment value => exact Nat.one_pos

theorem le_of_mem_numbers {id c : Nat} {ms : List Markup} (h : c ∈ numbers id ms) : id ≤ c := by
  induction ms generalizing id with
  | nil => exact absurd h List.not_mem_nil
  | cons m ms ih =>
    rcases List.mem_cons.mp h with rfl | h
    · exact Nat.le_refl c
    · exact Nat.le_trans (Nat.le_add_right id m.size) (ih h)

theorem pairwise_numbers (id : Nat) (ms : List Markup) : (numbers id ms).Pairwise (· < ·) := by
  induction ms generalizing id with
  | nil => exact List.Pairwise.nil
  | cons m ms ih =>
    refine List.pairwise_cons.mpr ⟨fun c hc => ?_, ih _⟩
    have hle := le_of_mem_numbers hc
    have hpos := m.size_pos
    omega

/-! ## Where a piece of markup stands -/

variable {nodes : Array Entry} {height : Nat}

/-- The entries stand in the table from the number `id` on. -/
def StandsAt (nodes : Array Entry) (id : Nat) (es : List Entry) : Prop :=
  es <+: nodes.toList.drop id

theorem StandsAt.append {id : Nat} {es fs : List Entry} (h : StandsAt nodes id (es ++ fs)) :
    StandsAt nodes id es ∧ StandsAt nodes (id + es.length) fs := by
  obtain ⟨rest, hrest⟩ := h
  refine ⟨⟨fs ++ rest, by rw [← List.append_assoc, hrest]⟩, rest, ?_⟩
  rw [← List.drop_drop, ← hrest, List.append_assoc, List.drop_left]

theorem StandsAt.get {id : Nat} {es : List Entry} (h : StandsAt nodes id es) {i : Nat}
    (hi : i < es.length) : nodes[id + i]? = some es[i] := by
  obtain ⟨rest, hrest⟩ := h
  rw [← Array.getElem?_toList, ← List.getElem?_drop, ← hrest,
    List.getElem?_append_left hi, List.getElem?_eq_getElem hi]

/-- A piece of markup of the document: its nodes stand in the table from `id` on, its first node is
a child of `parent` and stands `k` levels below the document node. -/
structure Placed (nodes : Array Entry) (height k parent id : Nat) (m : Markup) : Prop where
  stands : StandsAt nodes id (entries parent id m)
  listed : id ∈ (hostTree nodes height).children parent
  atDepth : (hostTree nodes height).AtDepth 0 k id
  depth_le : k + m.depth ≤ height

/-- Consecutive pieces of markup, all of them children of one node. -/
structure PlacedAll (nodes : Array Entry) (height k parent id : Nat) (ms : List Markup) : Prop where
  stands : StandsAt nodes id (entriesOf parent id ms)
  listed : ∀ c ∈ numbers id ms, c ∈ (hostTree nodes height).children parent
  atDepth : (hostTree nodes height).AtDepth 0 k parent
  depth_le : k + 1 + depths ms ≤ height

theorem parent_of_stands {parent id : Nat} {m : Markup}
    (h : StandsAt nodes id (entries parent id m)) :
    (hostTree nodes height).parent id = some parent := by
  have hget := h.get (i := 0) (by rw [length_entries]; exact m.size_pos)
  change nodes[id]?.bind Entry.parent = some parent
  rw [Nat.add_zero] at hget
  rw [hget]
  cases m <;> rfl

theorem PlacedAll.head {k parent id : Nat} {m : Markup} {ms : List Markup}
    (h : PlacedAll nodes height k parent id (m :: ms)) :
    Placed nodes height (k + 1) parent id m where
  stands := h.stands.append.1
  listed := h.listed id List.mem_cons_self
  atDepth := ⟨parent, parent_of_stands h.stands.append.1, h.atDepth⟩
  depth_le := by
    have hdepth := h.depth_le
    rw [depths] at hdepth
    omega

theorem PlacedAll.tail {k parent id : Nat} {m : Markup} {ms : List Markup}
    (h : PlacedAll nodes height k parent id (m :: ms)) :
    PlacedAll nodes height k parent (id + m.size) ms where
  stands := by
    have htail := h.stands.append.2
    rwa [length_entries] at htail
  listed c hc := h.listed c (List.mem_cons_of_mem id hc)
  atDepth := h.atDepth
  depth_le := by
    have hdepth := h.depth_le
    rw [depths] at hdepth
    omega

section Element

variable {k parent id : Nat} {name : String} {attributes : List (String × String)}
  {content : List Markup}

theorem Placed.entry (h : Placed nodes height k parent id (.element name attributes content)) :
    (hostTree nodes height).children id = numbers (id + 1 + attributes.length) content ∧
      (hostTree nodes height).attributes id = List.range' (id + 1) attributes.length := by
  have hget := h.stands.get (i := 0) (by rw [length_entries]; exact size_pos _)
  rw [Nat.add_zero] at hget
  change (nodes[id]?.map Entry.children).getD [] = _ ∧ (nodes[id]?.map Entry.attributes).getD [] = _
  rw [hget]
  exact ⟨rfl, rfl⟩

theorem Placed.inside (h : Placed nodes height k parent id (.element name attributes content)) :
    PlacedAll nodes height k id (id + 1 + attributes.length) content where
  stands := by
    have htail := h.stands.append.2
    rw [List.length_cons, List.length_map] at htail
    have hfirst : id + (attributes.length + 1) = id + 1 + attributes.length := by omega
    rwa [hfirst] at htail
  listed c hc := by
    rw [h.entry.1]
    exact hc
  atDepth := h.atDepth
  depth_le := by
    have hdepth := h.depth_le
    rw [depth] at hdepth
    omega

/-- An attribute names its element, and there is nothing below it. -/
theorem Placed.attr (h : Placed nodes height k parent id (.element name attributes content))
    {i : Nat} (hi : i < attributes.length) :
    (hostTree nodes height).parent (id + 1 + i) = some id ∧
      (hostTree nodes height).listed (id + 1 + i) = [] := by
  have hget := h.stands.append.1.get (i := i + 1) (by simpa using hi)
  rw [List.getElem_cons_succ, List.getElem_map, ← Nat.add_assoc, Nat.add_right_comm] at hget
  have hchildren : (hostTree nodes height).children (id + 1 + i) = [] := by
    change (nodes[id + 1 + i]?.map Entry.children).getD [] = []
    rw [hget]
    rfl
  have hattributes : (hostTree nodes height).attributes (id + 1 + i) = [] := by
    change (nodes[id + 1 + i]?.map Entry.attributes).getD [] = []
    rw [hget]
    rfl
  refine ⟨?_, by rw [HostTree.listed, hchildren, hattributes]; rfl⟩
  change nodes[id + 1 + i]?.bind Entry.parent = some id
  rw [hget]
  rfl

end Element

/-- Texts and comments have nothing below them. -/
theorem Placed.leaf {k parent id : Nat} {m : Markup} (h : Placed nodes height k parent id m)
    (hm : ∀ name attributes content, m ≠ .element name attributes content) :
    (hostTree nodes height).listed id = [] := by
  have hget := h.stands.get (i := 0) (by rw [length_entries]; exact size_pos _)
  rw [Nat.add_zero] at hget
  change (nodes[id]?.map Entry.attributes).getD [] ++ (nodes[id]?.map Entry.children).getD [] = []
  rw [hget]
  cases m with
  | element name attributes content => exact absurd rfl (hm name attributes content)
  | text value => rfl
  | comment value => rfl

/-! ## All nodes of a document -/

/-- The number of a piece of markup or of an attribute. -/
inductive Known (nodes : Array Entry) (height : Nat) : Nat → Prop where
  | piece {k parent x : Nat} {m : Markup} : Placed nodes height k parent x m → Known nodes height x
  | attr {k parent id i : Nat} {name : String} {attributes : List (String × String)}
      {content : List Markup} : Placed nodes height k parent id (.element name attributes content) →
      i < attributes.length → Known nodes height (id + 1 + i)

mutual

theorem known_of_placed : (m : Markup) → ∀ (k parent id x : Nat),
    Placed nodes height k parent id m → id ≤ x → x < id + m.size → Known nodes height x
  | .element name attributes content => fun k parent id x h hle hlt => by
    rw [size] at hlt
    rcases Nat.lt_or_ge x (id + 1 + attributes.length) with hx | hx
    · rcases Nat.eq_or_lt_of_le hle with rfl | hlow
      · exact .piece h
      · obtain ⟨i, rfl⟩ : ∃ i, x = id + 1 + i := ⟨x - (id + 1), by omega⟩
        exact .attr h (by omega)
    · exact known_of_placedAll content _ _ _ x h.inside hx (by omega)
  | .text _ => fun k parent id x h hle hlt => by
    obtain rfl : id = x := Nat.le_antisymm hle (Nat.lt_succ_iff.mp hlt)
    exact .piece h
  | .comment _ => fun k parent id x h hle hlt => by
    obtain rfl : id = x := Nat.le_antisymm hle (Nat.lt_succ_iff.mp hlt)
    exact .piece h

theorem known_of_placedAll : (ms : List Markup) → ∀ (k parent id x : Nat),
    PlacedAll nodes height k parent id ms → id ≤ x → x < id + sizes ms → Known nodes height x
  | [] => fun _ _ _ _ _ hle hlt => absurd hlt (Nat.not_lt.mpr hle)
  | m :: ms => fun k parent id x h hle hlt => by
    rw [sizes] at hlt
    rcases Nat.lt_or_ge x (id + m.size) with hx | hx
    · exact known_of_placed m _ _ _ x h.head hle hx
    · exact known_of_placedAll ms _ _ _ x h.tail hx (by omega)

end

theorem parent_of_mem_numbers {k parent id c : Nat} {ms : List Markup}
    (h : PlacedAll nodes height k parent id ms) (hc : c ∈ numbers id ms) :
    (hostTree nodes height).parent c = some parent := by
  induction ms generalizing id with
  | nil => exact absurd hc List.not_mem_nil
  | cons m ms ih =>
    rcases List.mem_cons.mp hc with rfl | hc
    · exact parent_of_stands h.head.stands
    · exact ih h.tail hc

/-- The nodes that a node lists name it as their parent, and each is listed once. -/
structure Lists (nodes : Array Entry) (height x : Nat) : Prop where
  parent : ∀ c ∈ (hostTree nodes height).listed x, (hostTree nodes height).parent c = some x
  nodup : ((hostTree nodes height).listed x).Nodup

theorem lists_of_nil {x : Nat} (h : (hostTree nodes height).listed x = []) :
    Lists nodes height x := by
  constructor
  · rw [h]
    exact List.forall_mem_nil _
  · rw [h]
    exact List.nodup_nil

theorem Placed.lists {k parent id : Nat} {name : String} {attributes : List (String × String)}
    {content : List Markup} (h : Placed nodes height k parent id (.element name attributes content)) :
    Lists nodes height id := by
  obtain ⟨hchildren, hattributes⟩ := h.entry
  constructor
  · intro c hc
    rw [HostTree.listed, hchildren, hattributes] at hc
    rcases List.mem_append.mp hc with hc | hc
    · obtain ⟨i, hi, rfl⟩ := List.mem_range'.mp hc
      rw [Nat.one_mul]
      exact (h.attr hi).1
    · exact parent_of_mem_numbers h.inside hc
  · rw [HostTree.listed, hchildren, hattributes]
    refine List.nodup_append.mpr ⟨List.nodup_range', (pairwise_numbers _ _).imp Nat.ne_of_lt, ?_⟩
    intro c hc d hd
    have hlow := (List.mem_range'_1.mp hc).2
    have hhigh := le_of_mem_numbers hd
    omega

theorem Known.lists {x : Nat} (h : Known nodes height x) : Lists nodes height x := by
  cases h with
  | @piece k parent x m h =>
    cases m with
    | element name attributes content => exact h.lists
    | text value => exact lists_of_nil (h.leaf fun _ _ _ => nofun)
    | comment value => exact lists_of_nil (h.leaf fun _ _ _ => nofun)
  | attr h hi => exact lists_of_nil (h.attr hi).2

/-- Every node but the first is listed by its parent and stands at a depth that is allowed. -/
theorem Known.below {x : Nat} (h : Known nodes height x) :
    ∃ p, (hostTree nodes height).parent x = some p ∧ x ∈ (hostTree nodes height).listed p ∧
      p < nodes.size ∧ ∃ n ≤ height, (hostTree nodes height).AtDepth 0 n x := by
  have hsize {p c : Nat} (hc : c ∈ (hostTree nodes height).listed p) : p < nodes.size := by
    refine Nat.lt_of_not_le fun hle => ?_
    have hget : nodes[p]? = none := Array.getElem?_eq_none hle
    change c ∈ (nodes[p]?.map Entry.attributes).getD [] ++ (nodes[p]?.map Entry.children).getD [] at hc
    rw [hget] at hc
    exact List.not_mem_nil hc
  cases h with
  | @piece k parent x m h =>
    have hmem := List.mem_append_right ((hostTree nodes height).attributes parent) h.listed
    have hdepth := h.depth_le
    exact ⟨parent, parent_of_stands h.stands, hmem, hsize hmem, k, by omega, h.atDepth⟩
  | @attr k parent id i name attributes content h hi =>
    have hmem : id + 1 + i ∈ (hostTree nodes height).listed id := by
      rw [HostTree.listed, h.entry.2]
      exact List.mem_append_left _ (List.mem_range'_1.mpr ⟨by omega, by omega⟩)
    have hdepth := h.depth_le
    have hpos := depth_pos (.element name attributes content)
    exact ⟨id, (h.attr hi).1, hmem, hsize hmem, k + 1, by omega, id, (h.attr hi).1, h.atDepth⟩

/-! ## The document -/

section Document

variable (content : List Markup)

theorem size_table : (table content).size = 1 + sizes content := by
  rw [table, List.size_toArray, List.length_cons, length_entriesOf, Nat.add_comm]

theorem placedAll_table :
    PlacedAll (table content) (depths content + 1) 0 0 1 content where
  stands := List.prefix_refl _
  listed _ hc := hc
  atDepth := rfl
  depth_le := by omega

theorem known_table {x : Nat} (hx : x < (table content).size) (hpos : 0 < x) :
    Known (table content) (depths content + 1) x := by
  rw [size_table] at hx
  exact known_of_placedAll content _ _ _ x (placedAll_table content) hpos hx

theorem lists_table {x : Nat} (hx : x < (table content).size) :
    Lists (table content) (depths content + 1) x := by
  rcases Nat.eq_zero_or_pos x with rfl | hpos
  · constructor
    · intro c hc
      exact parent_of_mem_numbers (placedAll_table content) hc
    · exact (pairwise_numbers 1 content).imp Nat.ne_of_lt
  · exact (known_table content hx hpos).lists

theorem lt_size_of_parent {x p : Nat}
    (h : (hostTree (table content) (depths content + 1)).parent x = some p) :
    x < (table content).size := by
  refine Nat.lt_of_not_le fun hle => ?_
  have hget : (table content)[x]? = none := Array.getElem?_eq_none hle
  change (table content)[x]?.bind Entry.parent = some p at h
  rw [hget] at h
  cases h

/-- The links of a document from markup agree. -/
theorem treeOn_document :
    (document content).full.TreeOn 0 (· < (table content).size) where
  top_mem := by rw [size_table]; omega
  top_parent := rfl
  closed := by
    intro x p hx hp
    rcases Nat.eq_zero_or_pos x with rfl | hpos
    · cases hp
    · obtain ⟨q, hq, _, hlt, _⟩ := (known_table content hx hpos).below
      obtain rfl : q = p := Option.some.inj (hq.symm.trans hp)
      exact hlt
  depth := by
    intro x hx
    rcases Nat.eq_zero_or_pos x with rfl | hpos
    · exact ⟨0, Nat.zero_le _, rfl⟩
    · obtain ⟨_, _, _, _, n, hn, hdepth⟩ := (known_table content hx hpos).below
      exact ⟨n, hn, HostTree.atDepth_full.mpr hdepth⟩
  mem_children := by
    intro p x hp
    constructor
    · intro hx
      have hparent := (lists_table content hp).parent x hx
      exact ⟨lt_size_of_parent content hparent, hparent⟩
    · rintro ⟨hx, hparent⟩
      rcases Nat.eq_zero_or_pos x with rfl | hpos
      · cases hparent
      · obtain ⟨q, hq, hmem, _⟩ := (known_table content hx hpos).below
        obtain rfl : q = p := Option.some.inj (hq.symm.trans hparent)
        exact hmem
  nodup_children hp := (lists_table content hp).nodup

end Document

/-! ## Numbers follow the preorder listing -/

/-- The preorder listing goes on from a node with the listings of the nodes below it. -/
theorem subtree_of_listed (h : (hostTree nodes height).full.TreeOn 0 (· < nodes.size)) {x : Nat}
    (hx : x < nodes.size) :
    (hostTree nodes height).full.subtree x =
      x :: ((hostTree nodes height).listed x).flatMap (hostTree nodes height).full.subtree :=
  h.subtree_eq hx

theorem Placed.lt_size {k parent id : Nat} {m : Markup}
    (hm : Placed nodes height k parent id m) : id < nodes.size := by
  have hget := hm.stands.get (i := 0) (by rw [length_entries]; exact size_pos _)
  rw [Nat.add_zero] at hget
  exact (Array.getElem?_eq_some_iff.mp hget).1

theorem Placed.subtree_leaf (h : (hostTree nodes height).full.TreeOn 0 (· < nodes.size))
    {k parent id : Nat} {m : Markup} (hm : Placed nodes height k parent id m)
    (hleaf : ∀ name attributes content, m ≠ .element name attributes content) :
    (hostTree nodes height).full.subtree id = [id] := by
  rw [subtree_of_listed h hm.lt_size, hm.leaf hleaf]
  rfl

mutual

theorem subtree_of_placed (h : (hostTree nodes height).full.TreeOn 0 (· < nodes.size)) :
    (m : Markup) → ∀ (k parent id : Nat), Placed nodes height k parent id m →
    (hostTree nodes height).full.subtree id = List.range' id m.size
  | .element name attributes content => fun k parent id hm => by
    obtain ⟨hchildren, hattributes⟩ := hm.entry
    -- an attribute has nothing below it
    have hattr : ∀ a ∈ List.range' (id + 1) attributes.length,
        (hostTree nodes height).full.subtree a = [a] := by
      intro a ha
      obtain ⟨i, hi, rfl⟩ := List.mem_range'.mp ha
      obtain ⟨hparent, hlisted⟩ := hm.attr hi
      rw [Nat.one_mul, subtree_of_listed h ?_, hlisted]
      · rfl
      · refine ((h.mem_children hm.lt_size).mp ?_).1
        change id + 1 + i ∈ (hostTree nodes height).listed id
        rw [HostTree.listed, hattributes]
        exact List.mem_append_left _ (List.mem_range'_1.mpr ⟨by omega, by omega⟩)
    -- the numbers of the attributes are followed by those of the content
    rw [subtree_of_listed h hm.lt_size, HostTree.listed, hchildren, hattributes,
      List.flatMap_append, List.flatMap_congr hattr, List.flatMap_singleton',
      subtree_of_placedAll h content _ _ _ hm.inside, List.range'_append_1, ← List.range'_succ,
      size]
    congr 1
    omega
  | .text value => fun k parent id hm => hm.subtree_leaf h fun _ _ _ => nofun
  | .comment value => fun k parent id hm => hm.subtree_leaf h fun _ _ _ => nofun

theorem subtree_of_placedAll (h : (hostTree nodes height).full.TreeOn 0 (· < nodes.size)) :
    (ms : List Markup) → ∀ (k parent id : Nat), PlacedAll nodes height k parent id ms →
    (numbers id ms).flatMap (hostTree nodes height).full.subtree = List.range' id (sizes ms)
  | [] => fun _ _ _ _ => rfl
  | m :: ms => fun k parent id hms => by
    rw [numbers, List.flatMap_cons, subtree_of_placed h m _ _ _ hms.head,
      subtree_of_placedAll h ms _ _ _ hms.tail, sizes, List.range'_append_1]

end

theorem preorder_document (content : List Markup) :
    (document content).preorder 0 = List.range (table content).size := by
  have h := treeOn_document content
  have hroot : 0 < (table content).size := h.top_mem
  change (document content).full.subtree 0 = _
  rw [h.subtree_eq hroot]
  change 0 :: (numbers 1 content).flatMap
    (hostTree (table content) (depths content + 1)).full.subtree = _
  rw [subtree_of_placedAll h content _ _ _ (placedAll_table content), List.range_eq_range',
    size_table, Nat.add_comm, List.range'_succ]

end Markup

/-! ## Document order by numbers -/

theorem idxOf_range {n x : Nat} (hx : x < n) : (List.range n).idxOf x = x := by
  have hlt : x < (List.range n).length := by rwa [List.length_range]
  have hplace := List.nodup_range.idxOf_getElem x hlt
  rwa [List.getElem_range] at hplace

/-- In a finite tree, document order is the order of the preorder listing: a node, then its
attributes, then what its children hold. In a document from markup it is the order of the numbers,
and the topmost node is the document node. -/
theorem compareByAncestry_eq_preorder :
    (∀ (N : Type) [DecidableEq N] [Ord N] (t : HostTree N) (nodes : Finset N) (top : N),
      t.IsTree nodes top →
      (t.preorder top).Nodup ∧ (∀ x, x ∈ t.preorder top ↔ x ∈ nodes) ∧
      (∀ x ∈ nodes, t.preorder x =
        x :: ((t.attributes x).flatMap t.preorder ++ (t.children x).flatMap t.preorder)) ∧
      ∀ x ∈ nodes, ∀ y ∈ nodes,
        t.compareByAncestry x y = compare ((t.preorder top).idxOf x) ((t.preorder top).idxOf y)) ∧
    ∀ content : List Markup, ∀ x < (Markup.table content).size, ∀ y < (Markup.table content).size,
      (Markup.document content).topmost x = (Markup.document content).root x ∧
      (Markup.document content).root x = 0 ∧
      (Markup.document content).compareByAncestry x y = (Markup.document content).order x y ∧
      (Markup.document content).order x y = compare x y := by
  refine ⟨?_, fun content x hx y hy => ?_⟩
  · intro N _ _ t nodes top h
    exact ⟨h.nodup_preorder, fun x => h.mem_preorder,
      fun x hx => HostTree.preorder_eq h.treeOn hx,
      fun x hx y hy => HostTree.compareByAncestry_eq_idxOf h.treeOn hx hy⟩
  · have htree := Markup.treeOn_document content
    refine ⟨?_, rfl, ?_, rfl⟩
    · obtain ⟨n, hn, hdepth⟩ := htree.depth hx
      exact (HostTree.atDepth_full.mp hdepth).topmost_eq htree.top_parent hn
    · rw [HostTree.compareByAncestry_eq_idxOf htree hx hy, Markup.preorder_document,
        idxOf_range hx, idxOf_range hy]
      rfl

theorem compareByAncestry_eq_preorder_sprig :
    HostTree.sprig.IsTree Finset.univ 0 ∧
      HostTree.sprig.compareByAncestry 2 3 =
        compare ((HostTree.sprig.preorder 0).idxOf 2) ((HostTree.sprig.preorder 0).idxOf 3) ∧
      HostTree.sprig.compareByAncestry 2 3 = .lt :=
  ⟨HostTree.isTree_sprig,
    (compareByAncestry_eq_preorder.1 _ _ _ _ HostTree.isTree_sprig).2.2.2 2 (Finset.mem_univ _) 3
      (Finset.mem_univ _),
    by decide⟩

end ReactiveForm
