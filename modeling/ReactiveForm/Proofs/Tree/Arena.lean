import ReactiveForm.Tree.Arena

/-!
# What an arena holds

The content that an identifier stands for after each operation, and the invariant that the free
list names the empty slots, each once.
-/

set_option autoImplicit false

namespace ReactiveForm

/-- A slot with no regard to what it holds. -/
def Slot.outline {α : Type} (s : Slot α) : Nat × Bool := (s.generation, s.content.isSome)

namespace Arena

variable {α : Type} (a : Arena α)

theorem get?_eq_some {a : Arena α} {id : NodeId} {c : α} :
    a.get? id = some c ↔ a.slots[id.index]? = some ⟨id.generation, some c⟩ := by
  unfold get?
  cases hs : a.slots[id.index]? with
  | none => simp
  | some slot =>
    obtain ⟨generation, content⟩ := slot
    by_cases hg : generation = id.generation
    · simp [hg]
    · simp [hg]

theorem index_lt_size {a : Arena α} {id : NodeId} {c : α} (h : a.get? id = some c) :
    id.index < a.size := by
  have hslot := get?_eq_some.mp h
  exact (List.getElem?_eq_some_iff.mp hslot).1

theorem eq_of_index_eq {a : Arena α} {x y : NodeId} {c d : α} (hx : a.get? x = some c)
    (hy : a.get? y = some d) (h : x.index = y.index) : x = y := by
  have hslot := get?_eq_some.mp hx
  rw [h, get?_eq_some.mp hy] at hslot
  obtain ⟨i, g⟩ := x
  obtain ⟨j, k⟩ := y
  simp_all

theorem contains_iff {a : Arena α} {id : NodeId} : a.contains id ↔ ∃ c, a.get? id = some c :=
  Option.isSome_iff_exists

theorem get?_modify (id x : NodeId) (f : α → α) :
    (a.modify id f).get? x = if x = id then (a.get? id).map f else a.get? x := by
  unfold modify
  split
  next hc =>
    obtain ⟨c, hc⟩ := contains_iff.mp hc
    have hslot := get?_eq_some.mp hc
    simp only [get?, List.getElem?_modify]
    by_cases hx : x = id
    · subst hx
      simp [hslot]
    · rw [if_neg hx]
      by_cases hi : id.index = x.index
      · have hg : id.generation ≠ x.generation := by
          intro hg
          apply hx
          obtain ⟨i, g⟩ := x
          obtain ⟨j, k⟩ := id
          simp_all
        simp [← hi, hslot, hg]
      · simp [hi]
  next hc =>
    have hnone : a.get? id = none := by simpa [contains] using hc
    by_cases hx : x = id
    · simp [hx, hnone]
    · rw [if_neg hx]

@[simp] theorem size_modify (id : NodeId) (f : α → α) : (a.modify id f).size = a.size := by
  unfold modify size
  split <;> simp

/-- The same slots are empty, and all are of the same generations. -/
structure SameSlots (a' : Arena α) : Prop where
  free : a'.free = a.free
  slots : ∀ i : Nat, a'.slots[i]?.map Slot.outline = a.slots[i]?.map Slot.outline

theorem SameSlots.refl : a.SameSlots a := ⟨rfl, fun _ => rfl⟩

theorem SameSlots.trans {a a' a'' : Arena α} (h : a.SameSlots a') (h' : a'.SameSlots a'') :
    a.SameSlots a'' :=
  ⟨h'.free.trans h.free, fun i => (h'.slots i).trans (h.slots i)⟩

theorem sameSlots_modify (id : NodeId) (f : α → α) : a.SameSlots (a.modify id f) := by
  unfold modify
  split
  · refine ⟨rfl, fun i => ?_⟩
    simp only [List.getElem?_modify]
    by_cases hi : id.index = i
    · cases a.slots[i]? <;> simp [hi, Slot.outline]
    · simp [hi]
  · exact .refl a

/-! ## The free list -/

/-- The free list names the empty slots, each once. -/
structure Sound : Prop where
  nodup : a.free.Nodup
  mem_free : ∀ i, i ∈ a.free ↔ ∃ g, a.slots[i]? = some ⟨g, none⟩

variable {a}

theorem sound_empty : Sound ({} : Arena α) where
  nodup := List.nodup_nil
  mem_free := by simp

theorem empty_iff {i : Nat} : (∃ g, a.slots[i]? = some ⟨g, none⟩) ↔
    ∃ g, a.slots[i]?.map Slot.outline = some (g, false) := by
  cases a.slots[i]? with
  | none => simp
  | some s =>
    obtain ⟨g, c⟩ := s
    cases c <;> simp [Slot.outline]

theorem Sound.of_sameSlots {a' : Arena α} (h : a.Sound) (hslots : a.SameSlots a') : a'.Sound where
  nodup := by
    rw [hslots.free]
    exact h.nodup
  mem_free i := by
    rw [hslots.free, h.mem_free, empty_iff, empty_iff, hslots.slots]

theorem Sound.modify (h : a.Sound) (id : NodeId) (f : α → α) : (a.modify id f).Sound :=
  h.of_sameSlots (a.sameSlots_modify id f)

theorem getElem?_snoc {β : Type} (xs : List β) (y : β) (j : Nat) :
    (xs ++ [y])[j]? = if j = xs.length then some y else xs[j]? := by
  by_cases hj : j = xs.length
  · simp [hj]
  · rw [if_neg hj, List.getElem?_append]
    split
    · rfl
    · rw [List.getElem?_eq_none (by simp; omega), List.getElem?_eq_none (by omega)]

/-- Where a new content goes: into a new slot, or into the empty slot named first. -/
theorem Sound.alloc_cases (h : a.Sound) (c : α) :
    (a.free = [] ∧ a.alloc c = (⟨a.size, 0⟩, { a with slots := a.slots ++ [⟨0, some c⟩] })) ∨
    ∃ i rest g, a.free = i :: rest ∧ a.slots[i]? = some ⟨g, none⟩ ∧
      a.alloc c = (⟨i, g⟩,
        { slots := a.slots.modify i fun s => { s with content := some c }, free := rest }) := by
  unfold Arena.alloc
  cases hf : a.free with
  | nil => exact .inl ⟨rfl, rfl⟩
  | cons i rest =>
    obtain ⟨g, hg⟩ := (h.mem_free i).mp (by simp [hf])
    exact .inr ⟨i, rest, g, rfl, hg, by simp [hg]⟩

theorem Sound.get?_alloc_fresh (h : a.Sound) (c : α) : a.get? (a.alloc c).1 = none := by
  rcases h.alloc_cases c with ⟨_, heq⟩ | ⟨i, rest, g, _, hslot, heq⟩
  · simp [heq, get?, size]
  · simp [heq, get?, hslot]

/-- A new node takes an identifier that stood for nothing, and all others keep their nodes. -/
theorem Sound.get?_alloc (h : a.Sound) (c : α) (x : NodeId) :
    (a.alloc c).2.get? x = if x = (a.alloc c).1 then some c else a.get? x := by
  obtain ⟨j, k⟩ := x
  rcases h.alloc_cases c with ⟨_, heq⟩ | ⟨i, rest, g, _, hslot, heq⟩
  · simp only [heq, get?, NodeId.mk.injEq, size]
    rw [getElem?_snoc]
    by_cases hj : j = a.slots.length
    · subst hj
      by_cases hk : k = 0
      · simp [hk]
      · simp [hk, Ne.symm hk]
    · simp [hj]
  · simp only [heq, get?, NodeId.mk.injEq, List.getElem?_modify]
    by_cases hj : j = i
    · subst hj
      by_cases hk : k = g
      · simp [hslot, hk]
      · simp [hslot, hk, Ne.symm hk]
    · simp [hj, Ne.symm hj]

theorem Sound.get?_alloc_self (h : a.Sound) (c : α) : (a.alloc c).2.get? (a.alloc c).1 = some c := by
  rw [h.get?_alloc, if_pos rfl]

theorem Sound.get?_alloc_kept (h : a.Sound) (c : α) {x : NodeId} {d : α} (hx : a.get? x = some d) :
    (a.alloc c).2.get? x = some d := by
  rw [h.get?_alloc, if_neg, hx]
  rintro rfl
  exact nomatch (h.get?_alloc_fresh c).symm.trans hx

theorem Sound.eq_of_get?_alloc (h : a.Sound) {c d : α} {x : NodeId} (hnone : a.get? x = none)
    (hx : (a.alloc c).2.get? x = some d) : x = (a.alloc c).1 ∧ d = c := by
  rw [h.get?_alloc] at hx
  split at hx
  next heq => exact ⟨heq, (Option.some.inj hx).symm⟩
  next => exact nomatch hnone.symm.trans hx

theorem Sound.alloc (h : a.Sound) (c : α) : (a.alloc c).2.Sound := by
  rcases h.alloc_cases c with ⟨hfree, heq⟩ | ⟨i, rest, g, hfree, hslot, heq⟩
  · rw [heq]
    refine ⟨h.nodup, ?_⟩
    intro j
    refine (h.mem_free j).trans ?_
    simp only [getElem?_snoc]
    by_cases hj : j = a.slots.length
    · simp [hj]
    · simp [hj]
  · rw [heq]
    have hnodup : i ∉ rest ∧ rest.Nodup := List.nodup_cons.mp (hfree ▸ h.nodup)
    refine ⟨hnodup.2, ?_⟩
    intro j
    have hmem := h.mem_free j
    rw [hfree, List.mem_cons] at hmem
    by_cases hj : j = i
    · subst hj
      simp [hslot, hnodup.1]
    · simpa [hj, Ne.symm hj, List.getElem?_modify] using hmem

theorem size_le_size_alloc (c : α) : a.size ≤ (a.alloc c).2.size := by
  unfold Arena.alloc size
  split <;> simp

theorem get?_release (id x : NodeId) :
    (a.release id).get? x = if x = id then none else a.get? x := by
  unfold Arena.release
  split
  next hc =>
    obtain ⟨c, hc⟩ := contains_iff.mp hc
    have hslot := get?_eq_some.mp hc
    obtain ⟨j, k⟩ := x
    obtain ⟨i, g⟩ := id
    simp only [get?, List.getElem?_modify, NodeId.mk.injEq] at *
    by_cases hj : j = i
    · subst hj
      simp only [hslot]
      by_cases hk : k = g
      · simp [hk]
      · simp [hk, Ne.symm hk]
    · simp [hj, Ne.symm hj]
  next hc =>
    have hnone : a.get? id = none := by simpa [contains] using hc
    by_cases hx : x = id
    · rw [if_pos hx, hx, hnone]
    · rw [if_neg hx]

theorem Sound.release (h : a.Sound) (id : NodeId) : (a.release id).Sound := by
  unfold Arena.release
  split
  next hc =>
    obtain ⟨c, hc⟩ := contains_iff.mp hc
    have hslot := get?_eq_some.mp hc
    have hused : id.index ∉ a.free := by
      intro hm
      obtain ⟨g, hg⟩ := (h.mem_free _).mp hm
      simp [hg] at hslot
    refine ⟨List.nodup_cons.mpr ⟨hused, h.nodup⟩, ?_⟩
    intro j
    rw [List.mem_cons, h.mem_free j]
    simp only [List.getElem?_modify]
    by_cases hj : id.index = j
    · simp [← hj, hslot]
    · simp [hj, Ne.symm hj]
  next => exact h

theorem get?_foldl_release (ids : List NodeId) (a : Arena α) (x : NodeId) :
    (ids.foldl release a).get? x = if x ∈ ids then none else a.get? x := by
  induction ids generalizing a with
  | nil => simp
  | cons id ids ih =>
    rw [List.foldl_cons, ih, get?_release]
    by_cases hx : x ∈ ids
    · simp [hx]
    · by_cases hid : x = id <;> simp [hx, hid]

theorem Sound.foldl_release (h : a.Sound) (ids : List NodeId) :
    (ids.foldl Arena.release a).Sound := by
  induction ids generalizing a with
  | nil => exact h
  | cons id ids ih => exact ih (h.release id)

end Arena

end ReactiveForm
