import ReactiveForm.Proofs.Tree.Frame
import ReactiveForm.Proofs.Tree.Growth
import ReactiveForm.Tree.Entry

/-!
# Writes to leaves

A write changes the content of one leaf and keeps the frame of the tree. So a well-formed tree stays
well formed while it is filled in.
-/

set_option autoImplicit false

namespace ReactiveForm

namespace Tree

namespace SameFrame

theorem refl (t : Tree) : t.SameFrame t where
  root := rfl
  size := rfl
  nodes _ := rfl
  inner _ _ := rfl

variable {t t' t'' : Tree}

theorem trans (h : t.SameFrame t') (h' : t'.SameFrame t'') : t.SameFrame t'' where
  root := h'.root.trans h.root
  size := h'.size.trans h.size
  nodes id := (h'.nodes id).trans (h.nodes id)
  inner id hl := (h'.inner id (by rw [h.isLeaf_eq, hl])).trans (h.inner id hl)

end SameFrame

theorem Throughout.of_sameFrame {t t' : Tree} {P : Definition → Prop} (h : t.Throughout P)
    (hframe : t.SameFrame t') : t'.Throughout P := by
  intro id n' hn'
  rcases hframe.get?_cases id with ⟨_, hnone⟩ | ⟨n, m, hn, hm, hdefinition, _⟩
  · exact nomatch hnone.symm.trans hn'
  · obtain rfl : m = n' := Option.some.inj (hm.symm.trans hn')
    rw [hdefinition]
    exact h id n hn

variable {t : Tree} {id : NodeId}

theorem get?_modify (t : Tree) (id x : NodeId) (f : Node → Node) :
    (t.modify id f).get? x = if x = id then (t.get? id).map f else t.get? x :=
  Arena.get?_modify _ id x f

theorem sameLinks_modify (t : Tree) (id : NodeId) {f : Node → Node}
    (hf : ∀ n, (f n).frame = n.frame) : t.SameLinks (t.modify id f) where
  root := rfl
  size := Arena.size_modify _ _ _
  nodes x := by
    rw [get?_modify]
    by_cases hx : x = id
    · rw [if_pos hx, hx, Option.map_map]
      cases t.get? id <;> simp [hf]
    · rw [if_neg hx]

/-- A change of a node that leaves its definition and its links alone, and its content as well
unless the node is a leaf. -/
theorem sameFrame_modify {f : Node → Node} (hf : ∀ n, (f n).frame = n.frame)
    (hc : t.isLeaf id = false → ∀ n, (f n).content = n.content) :
    t.SameFrame (t.modify id f) where
  root := rfl
  size := Arena.size_modify _ _ _
  nodes := (sameLinks_modify t id hf).nodes
  inner x hl := by
    rw [content?, content?, get?_modify]
    by_cases hx : x = id
    · rw [if_pos hx, hx, Option.map_map]
      cases t.get? id <;> simp [hc (hx ▸ hl)]
    · rw [if_neg hx]

theorem sameFrame_put (hl : t.isLeaf id) (content : Content) :
    t.SameFrame (t.put id content).2 := by
  unfold put
  split
  · exact .refl t
  · split
    · exact .refl t
    · exact sameFrame_modify (fun _ => rfl) fun hno => by simp [hl] at hno

end Tree

/-! ## Contents -/

theorem Content.eq_inner_of_suits {c : Content} {type : NodeType} (h : c.suits type)
    (hl : type.isLeaf = false) : c = .inner := by
  cases c <;> cases type <;> simp_all [suits, NodeType.isLeaf]

/-- The contents that `f` gives suit all nodes whose contents do. -/
def Content.Fits (f : Node → Content) : Prop :=
  ∀ n : Node, n.content.suits n.definition.type → (f n).suits n.definition.type

namespace Node

/-- The content of the node after values are selected in it. -/
def selecting (values : List String) (n : Node) : Content :=
  match n.definition, n.content with
  | .select _ mode _ items itemset, .selection _ =>
    let offered :=
      if items.isEmpty && itemset.isNone then values
      else values.filter fun v => n.status.items.any (·.value == v)
    .selection (match mode with
      | .single => offered.take 1
      | .multiple => offered)
  | _, c => c

/-- The content of the node after a text is written to it. -/
def writing (text : String) (n : Node) : Content :=
  match n.content with
  | .text _ => .text text
  | .selection _ => n.selecting (Text.words text).eraseDups
  | .inner => .inner

/-- The content of the node without the values that its items do not offer. -/
def revising (n : Node) : Content :=
  match n.content with
  | .selection values => n.selecting values
  | c => c

/-- The content of the node after it is emptied. -/
def emptying (n : Node) : Content :=
  match n.content with
  | .text _ => .text ""
  | .selection _ => .selection []
  | .inner => .inner

theorem fits_selecting (values : List String) : Content.Fits (selecting values) := by
  intro n hn
  unfold selecting
  split
  next heq _ => simp [heq, Content.suits, Definition.type]
  next => exact hn

theorem fits_writing (text : String) : Content.Fits (writing text) := by
  intro n hn
  unfold writing
  split
  next heq => rwa [heq] at hn
  next => exact fits_selecting _ n hn
  next heq => rwa [heq] at hn

theorem fits_revising : Content.Fits revising := by
  intro n hn
  unfold revising
  split
  next => exact fits_selecting _ n hn
  next => exact hn

theorem fits_emptying : Content.Fits emptying := by
  intro n hn
  unfold emptying
  split <;> next heq => rwa [heq] at hn

/-- What is selected is offered, so that a revision finds nothing to drop. -/
theorem revising_selecting (values : List String) (n : Node) :
    ({ n with content := n.selecting values } : Node).revising = n.selecting values := by
  obtain ⟨definition, parent, children, content, status⟩ := n
  cases definition with
  | select h mode default items itemset =>
    cases content with
    | selection before =>
      have hkept (p : String → Bool) (xs : List String) :
          ((xs.filter p).take 1).filter p = (xs.filter p).take 1 := by
        refine List.filter_eq_self.mpr ?_
        intro x hx
        exact (List.mem_filter.mp (List.mem_of_mem_take hx)).2
      cases hitems : items.isEmpty && itemset.isNone <;> cases mode <;>
        simp [revising, selecting, hitems, hkept, List.take_take]
    | text | inner => rfl
  | root | group | range | inst | value => cases content <;> rfl

theorem revising_writing (text : String) (n : Node) :
    ({ n with content := n.writing text } : Node).revising = n.writing text := by
  cases hc : n.content with
  | inner | text => simp [writing, hc, revising]
  | selection values =>
    simp only [writing, hc]
    exact revising_selecting _ n

theorem revising_revising (n : Node) :
    ({ n with content := n.revising } : Node).revising = n.revising := by
  cases hc : n.content with
  | inner | text => simp [revising, hc]
  | selection values =>
    simp only [revising, hc]
    exact revising_selecting values n

theorem writing_writing (text : String) (n : Node) :
    ({ n with content := n.writing text } : Node).writing text = n.writing text := by
  obtain ⟨definition, parent, children, content, status⟩ := n
  cases content with
  | inner | text => rfl
  | selection values => cases definition <;> rfl

theorem emptying_emptying (n : Node) :
    ({ n with content := n.emptying } : Node).emptying = n.emptying := by
  obtain ⟨definition, parent, children, content, status⟩ := n
  cases content <;> rfl

end Node

namespace Tree

/-! ## Writes -/

/-- Gives a node the content that `f` finds for it. -/
def rewrite (t : Tree) (id : NodeId) (f : Node → Content) : Bool × Tree :=
  match t.get? id with
  | none => (false, t)
  | some n => t.put id (f n)

variable {t : Tree} {id : NodeId}

theorem selectValues_eq (t : Tree) (id : NodeId) (values : List String) :
    t.selectValues id values = t.rewrite id (Node.selecting values) := by
  unfold selectValues rewrite
  cases hn : t.get? id with
  | none => rfl
  | some n =>
    have hput : (false, t) = t.put id n.content := by simp [put, hn]
    obtain ⟨definition, parent, children, content, status⟩ := n
    cases definition with
    | select h mode default items itemset =>
      cases content with
      | selection before => rfl
      | inner | text => exact hput
    | root | group | range | inst | value => exact hput

theorem write_eq (t : Tree) (id : NodeId) (text : String) :
    t.write id text = t.rewrite id (Node.writing text) := by
  unfold write content?
  rw [selectValues_eq]
  unfold rewrite
  cases hn : t.get? id with
  | none => rfl
  | some n =>
    have hput : (false, t) = t.put id n.content := by simp [put, hn]
    cases hc : n.content <;> simp_all [Node.writing]

theorem reviseSelection_eq (t : Tree) (id : NodeId) :
    t.reviseSelection id = t.rewrite id Node.revising := by
  unfold reviseSelection content?
  cases hn : t.get? id with
  | none => simp [rewrite, hn]
  | some n =>
    have hput : (false, t) = t.put id n.content := by simp [put, hn]
    cases hc : n.content <;> simp_all [Node.revising, rewrite, selectValues_eq]

theorem clear_eq (t : Tree) (id : NodeId) : t.clear id = t.rewrite id Node.emptying := by
  unfold clear content? rewrite
  cases hn : t.get? id with
  | none => rfl
  | some n =>
    have hput : (false, t) = t.put id n.content := by simp [put, hn]
    cases hc : n.content <;> simp_all [Node.emptying]

theorem get?_rewrite (t : Tree) (id x : NodeId) (f : Node → Content) :
    (t.rewrite id f).2.get? x
      = if x = id then (t.get? id).map fun n => { n with content := f n } else t.get? x := by
  unfold rewrite
  cases hn : t.get? id with
  | none => by_cases hx : x = id <;> simp [hx, hn]
  | some n =>
    unfold put
    simp only [hn]
    split
    next hsame =>
      by_cases hx : x = id
      · simp [hx, hn, ← hsame]
      · simp [hx]
    next => simp [get?_modify, hn]

theorem rewrite_unchanged_iff {f : Node → Content} :
    (t.rewrite id f).1 = false ↔ ∀ n, t.get? id = some n → f n = n.content := by
  unfold rewrite
  cases hn : t.get? id with
  | none => simp
  | some n =>
    unfold put
    simp only [hn]
    split
    next hsame => simp [hsame]
    next hdiff => simp [Ne.symm hdiff]

theorem live_of_rewrite {f : Node → Content} (h : (t.rewrite id f).1 = true) :
    ∃ n, t.get? id = some n := by
  unfold rewrite at h
  cases hn : t.get? id with
  | none => simp [hn] at h
  | some n => exact ⟨n, rfl⟩

theorem sameSlots_rewrite (t : Tree) (id : NodeId) (f : Node → Content) :
    t.arena.SameSlots (t.rewrite id f).2.arena := by
  unfold rewrite
  cases t.get? id with
  | none => exact .refl _
  | some n =>
    simp only [put]
    split
    · exact .refl _
    · split
      · exact .refl _
      · exact Arena.sameSlots_modify _ _ _

theorem sameLinks_rewrite (t : Tree) (id : NodeId) (f : Node → Content) :
    t.SameLinks (t.rewrite id f).2 := by
  unfold rewrite
  cases t.get? id with
  | none => exact .refl t
  | some n =>
    simp only [put]
    split
    · exact .refl t
    · split
      · exact .refl t
      · exact sameLinks_modify t id fun _ => rfl

theorem rewrite_of_unchanged {f : Node → Content} (h : (t.rewrite id f).1 = false) :
    (t.rewrite id f).2 = t := by
  unfold rewrite at h ⊢
  cases hn : t.get? id with
  | none => rfl
  | some n =>
    simp only [hn, put] at h ⊢
    split at h
    next hsame => simp [hsame]
    next => exact nomatch h

/-- A change of a node that leaves its definition and its links alone, and gives it a content that
suits it. -/
theorem Coherent.modify (h : t.Coherent) {f : Node → Node}
    (hf : ∀ n, t.get? id = some n →
      (f n).frame = n.frame ∧ (f n).content.suits n.definition.type) :
    t.SameFrame (t.modify id f) ∧ (t.modify id f).Coherent := by
  have hget (x : NodeId) := get?_modify t id x f
  have hinner : ∀ x, t.isLeaf x = false → (t.modify id f).content? x = t.content? x := by
    intro x hl
    rw [content?, content?, hget]
    by_cases hx : x = id
    · subst hx
      cases hn : t.get? x with
      | none => simp
      | some n =>
        have hl : n.definition.type.isLeaf = false := by
          simpa [isLeaf, hn, Definition.isLeaf] using hl
        simp [Content.eq_inner_of_suits (h.filled hn) hl,
          Content.eq_inner_of_suits (hf n hn).2 hl]
    · rw [if_neg hx]
  have hframe : t.SameFrame (t.modify id f) :=
    { root := rfl
      size := Arena.size_modify _ _ _
      nodes := by
        intro x
        rw [hget]
        by_cases hx : x = id
        · subst hx
          cases hn : t.get? x with
          | none => simp
          | some n => simp [(hf n hn).1]
        · rw [if_neg hx]
      inner := hinner }
  refine ⟨hframe, hframe.connected h.connected, ?_⟩
  intro x n' hn'
  rw [hget] at hn'
  by_cases hx : x = id
  · rw [if_pos hx] at hn'
    obtain ⟨n, hn, rfl⟩ := Option.map_eq_some_iff.mp hn'
    obtain ⟨hsame, hsuits⟩ := hf n hn
    rwa [(Prod.mk.inj hsame).1]
  · rw [if_neg hx] at hn'
    exact h.filled hn'

theorem Coherent.rewrite (h : t.Coherent) {f : Node → Content} (hf : Content.Fits f)
    (id : NodeId) : t.SameFrame (t.rewrite id f).2 ∧ (t.rewrite id f).2.Coherent := by
  unfold Tree.rewrite
  cases hn : t.get? id with
  | none => exact ⟨.refl t, h⟩
  | some n =>
    simp only [put, hn]
    split
    · exact ⟨.refl t, h⟩
    · apply h.modify
      intro m hm
      obtain rfl : n = m := Option.some.inj (hn.symm.trans hm)
      exact ⟨rfl, hf n (h.filled hn)⟩

/-- What is soundness of a tree apart from the contents stays with the frame and the arena. -/
theorem Sound.of_sameFrame {typed : Prop} {t' : Tree} (h : t.Sound typed) (hframe : t.SameFrame t')
    (hcoherent : t'.Coherent) (harena : t'.arena.Sound) : t'.Sound typed where
  toCoherent := hcoherent
  distinct := hframe.distinct h.distinct
  arena := harena
  types ht := hframe.typed (h.types ht)

end Tree

end ReactiveForm
