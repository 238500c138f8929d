import ReactiveForm.Proofs.Tree.Growth

/-!
# Identifiers

A slot never goes back to an earlier generation, and it goes to its next one when it is emptied. So
an identifier whose node has been removed stands for no node ever after.
-/

set_option autoImplicit false

namespace ReactiveForm

namespace Slot

variable {α : Type} {s s' s'' : Slot α}

/-- A slot keeps its content or goes to a later generation, and never back. -/
def Ages (s s' : Slot α) : Prop :=
  s'.generation = s.generation ∧ (s.content.isSome → s'.content.isSome) ∨
    s.generation < s'.generation

theorem Ages.refl (s : Slot α) : s.Ages s := .inl ⟨rfl, fun h => h⟩

theorem Ages.trans (h : s.Ages s') (h' : s'.Ages s'') : s.Ages s'' := by
  rcases h with ⟨heq, hkept⟩ | hless
  · rcases h' with ⟨heq', hkept'⟩ | hless'
    · exact .inl ⟨heq'.trans heq, fun hs => hkept' (hkept hs)⟩
    · exact .inr (heq ▸ hless')
  · rcases h' with ⟨heq', _⟩ | hless'
    · exact .inr (heq' ▸ hless)
    · exact .inr (Nat.lt_trans hless hless')

end Slot

namespace Arena

variable {α : Type} {a a' a'' : Arena α} {id : NodeId}

/-- The second arena is a later state of the first one. -/
def Ages (a a' : Arena α) : Prop :=
  ∀ (i : Nat) (slot : Slot α), a.slots[i]? = some slot →
    ∃ slot', a'.slots[i]? = some slot' ∧ slot.Ages slot'

/-- The slot of the identifier has gone to a later generation. -/
def Spent (a : Arena α) (id : NodeId) : Prop :=
  ∃ slot, a.slots[id.index]? = some slot ∧ id.generation < slot.generation

theorem Ages.refl (a : Arena α) : a.Ages a := fun _ slot hslot => ⟨slot, hslot, .refl slot⟩

theorem Ages.trans (h : a.Ages a') (h' : a'.Ages a'') : a.Ages a'' := by
  intro i slot hslot
  obtain ⟨slot', hslot', hages⟩ := h i slot hslot
  obtain ⟨slot'', hslot'', hages'⟩ := h' i slot' hslot'
  exact ⟨slot'', hslot'', hages.trans hages'⟩

theorem Ages.of_sameSlots (h : a.SameSlots a') : a.Ages a' := by
  intro i slot hslot
  have hsame := h.slots i
  rw [hslot, Option.map_some, Option.map_eq_some_iff] at hsame
  obtain ⟨slot', hslot', heq⟩ := hsame
  obtain ⟨hgeneration, hcontent⟩ := Prod.mk.inj heq
  exact ⟨slot', hslot', .inl ⟨hgeneration, fun hs => by rwa [hcontent]⟩⟩

theorem Ages.of_modify {i : Nat} {f : Slot α → Slot α} {free : List Nat}
    (hf : ∀ slot : Slot α, slot.Ages (f slot)) : a.Ages { slots := a.slots.modify i f, free } := by
  intro j slot hslot
  by_cases hj : i = j
  · exact ⟨f slot, by simp [hj, hslot], hf slot⟩
  · exact ⟨slot, by simp [hj, hslot], .refl slot⟩

theorem ages_alloc (a : Arena α) (c : α) : a.Ages (a.alloc c).2 := by
  unfold alloc
  split
  next =>
    intro i slot hslot
    have hlt : i < a.slots.length := (List.getElem?_eq_some_iff.mp hslot).1
    exact ⟨slot, by simp [List.getElem?_append_left hlt, hslot], .refl slot⟩
  next => exact Ages.of_modify fun slot => .inl ⟨rfl, fun _ => rfl⟩

theorem ages_release (a : Arena α) (id : NodeId) : a.Ages (a.release id) := by
  unfold release
  split
  next => exact Ages.of_modify fun slot => .inr (Nat.lt_succ_self _)
  next => exact .refl a

theorem ages_foldl_release (a : Arena α) (ids : List NodeId) : a.Ages (ids.foldl release a) := by
  induction ids generalizing a with
  | nil => exact .refl a
  | cons id ids ih => exact (a.ages_release id).trans (ih _)

/-- A content that is no longer there has left its slot to a later generation. -/
theorem Ages.contains_or_spent (h : a.Ages a') (hid : a.contains id) :
    a'.contains id ∨ a'.Spent id := by
  obtain ⟨c, hc⟩ := contains_iff.mp hid
  obtain ⟨⟨generation, content⟩, hslot', hages⟩ := h _ _ (get?_eq_some.mp hc)
  rcases hages with ⟨heq, hkept⟩ | hless
  · obtain ⟨c', rfl⟩ := Option.isSome_iff_exists.mp (hkept rfl)
    obtain rfl : generation = id.generation := heq
    exact .inl (contains_iff.mpr ⟨c', get?_eq_some.mpr hslot'⟩)
  · exact .inr ⟨_, hslot', hless⟩

theorem Spent.ages (hid : a.Spent id) (h : a.Ages a') : a'.Spent id := by
  obtain ⟨slot, hslot, hless⟩ := hid
  obtain ⟨slot', hslot', ⟨heq, _⟩ | hless'⟩ := h _ _ hslot
  · exact ⟨slot', hslot', heq ▸ hless⟩
  · exact ⟨slot', hslot', Nat.lt_trans hless hless'⟩

theorem Spent.not_contains (hid : a.Spent id) : a.contains id = false := by
  obtain ⟨slot, hslot, hless⟩ := hid
  simp [contains, get?, hslot, Nat.ne_of_gt hless]

/-! ## Growth -/

variable {arena : Arena Node}

theorem ages_graft (node : Node) {below : NodeId → Arena Node → List NodeId × Arena Node}
    (hbelow : ∀ id (a : Arena Node), a.Ages (below id a).2) :
    arena.Ages (arena.graft node below).2 := by
  unfold graft
  exact ((arena.ages_alloc node).trans (hbelow _ _)).trans (.of_sameSlots (sameSlots_modify _ _ _))

mutual

theorem ages_plant (parent : Option NodeId) (a : Arena Node) (d : Definition) :
    a.Ages (a.plant parent d).2 := by
  cases d with
  | root h cs => exact ages_graft _ fun id a => ages_plantAll id a cs
  | group h cs => exact ages_graft _ fun id a => ages_plantAll id a cs
  | range h template instances => exact ages_graft _ fun id a => ages_plantAll id a instances
  | inst h cs => exact ages_graft _ fun id a => ages_plantAll id a cs
  | value h default => exact a.ages_alloc _
  | select h mode default items itemset => exact a.ages_alloc _

theorem ages_plantAll (parent : NodeId) (a : Arena Node) (ds : List Definition) :
    a.Ages (a.plantAll parent ds).2 := by
  cases ds with
  | nil => exact .refl a
  | cons d ds => exact (ages_plant (some parent) a d).trans (ages_plantAll parent _ ds)

end

end Arena

namespace Tree

variable (t : Tree)

theorem ages_insertInstances (range : NodeId) (place count : Nat) (template : Definition) :
    t.arena.Ages (t.insertInstances range place count template).arena := by
  have hplanted := t.arena.ages_plantAll range (List.replicate count template)
  exact hplanted.trans (.of_sameSlots (Arena.sameSlots_modify _ _ _))

theorem ages_removeInstances (range : NodeId) (place count : Nat) :
    t.arena.Ages (t.removeInstances range place count).2.arena := by
  have hkept := Arena.Ages.of_sameSlots (t.arena.sameSlots_modify range fun n =>
    { n with children := n.children.take place ++ n.children.drop (place + count) })
  exact hkept.trans (Arena.ages_foldl_release _ _)

/-! ## Identifiers without a node -/

section

variable {t} {id : NodeId} (h : t.get? id = none)

include h

theorem parent_of_dead : t.parent id = none := by simp [parent, h]

theorem children_of_dead : t.children id = [] := by simp [children, h]

theorem ancestors_of_dead : t.ancestors id = [] := by
  change t.links.ancestorsUpTo t.arena.size id = []
  cases t.arena.size with
  | zero => rfl
  | succ n =>
    have hparent : t.links.parent id = none := parent_of_dead h
    simp [Links.ancestorsUpTo, hparent]

theorem subtree_of_dead : t.subtree id = [id] := by
  change t.links.subtreeUpTo t.arena.size id = [id]
  cases t.arena.size with
  | zero => rfl
  | succ n =>
    have hchildren : t.links.children id = [] := children_of_dead h
    simp [Links.subtreeUpTo, hchildren]

theorem value?_of_dead : t.value? id = none := by simp [value?, content?, h]

theorem text_of_dead : t.text id = "" := by
  unfold text
  rw [subtree_of_dead h, List.filterMap_cons, value?_of_dead h]
  rfl

theorem reference_of_dead : t.reference id = "" := by
  have hsegment : t.segment id = "" := by simp [segment, h]
  simp [reference, ancestors_of_dead h, hsegment]

end

end Tree

end ReactiveForm
