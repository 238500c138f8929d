import ReactiveForm.Document.Axes

/-!
# Axes stay among the nodes of a document

What the axes find is found by going from a node to its parent, to its attributes or to its
children. So a set of nodes that is closed under these is never left.
-/

set_option autoImplicit false

namespace ReactiveForm.HostTree

variable {N : Type} {t : HostTree N} {S : N → Prop}

/-- The nodes of which `S` holds are closed under the links of the tree. -/
structure ClosedOn (t : HostTree N) (S : N → Prop) : Prop where
  parent : ∀ {x p}, S x → t.parent x = some p → S p
  attributes : ∀ {x y}, S x → y ∈ t.attributes x → S y
  children : ∀ {x y}, S x → y ∈ t.children x → S y

namespace ClosedOn

variable (h : t.ClosedOn S)

include h

theorem ancestorsUpTo {n : Nat} {x y : N} (hx : S x) (hy : y ∈ t.ancestorsUpTo n x) : S y := by
  induction n generalizing x with
  | zero => exact absurd hy List.not_mem_nil
  | succ n ih =>
    simp only [Links.ancestorsUpTo] at hy
    cases hp : t.parent x with
    | none => simp [hp] at hy
    | some p =>
      simp only [hp] at hy
      rcases List.mem_cons.mp hy with rfl | hy
      · exact h.parent hx hp
      · exact ih (h.parent hx hp) hy

theorem self_or_ancestor {x y : N} (hx : S x) (hy : y ∈ x :: t.ancestors x) : S y := by
  rcases List.mem_cons.mp hy with rfl | hy
  · exact hx
  · exact h.ancestorsUpTo hx hy

theorem subtreeUpTo {n : Nat} {x y : N} (hx : S x) (hy : y ∈ t.subtreeUpTo n x) : S y := by
  induction n generalizing x with
  | zero =>
    obtain rfl := List.mem_singleton.mp hy
    exact hx
  | succ n ih =>
    rcases List.mem_cons.mp hy with rfl | hy
    · exact hx
    · obtain ⟨c, hc, hy⟩ := List.mem_flatMap.mp hy
      exact ih (h.children hx hc) hy

theorem descendants {x y : N} (hx : S x) (hy : y ∈ t.descendants x) : S y := by
  obtain ⟨c, hc, hy⟩ := List.mem_flatMap.mp hy
  exact h.subtreeUpTo (h.children hx hc) hy

theorem owner {x : N} (hx : S x) : S (t.owner x) := by
  unfold HostTree.owner
  split
  next p _ hp => exact h.parent hx hp
  next => exact hx

variable [DecidableEq N]

theorem siblings {x y : N} (hx : S x) (hy : y ∈ (t.siblings x).1 ∨ y ∈ (t.siblings x).2) :
    S y := by
  have hcases : ∃ p, t.parent x = some p ∧ y ∈ t.children p := by
    unfold HostTree.siblings at hy
    split at hy
    · simp at hy
    · simp at hy
    next p hp _ =>
      refine ⟨p, hp, ?_⟩
      dsimp only at hy
      split at hy
      · simp at hy
      · rcases hy with hy | hy
        · exact List.mem_of_mem_take hy
        · exact List.mem_of_mem_drop hy
  obtain ⟨p, hp, hy⟩ := hcases
  exact h.children (h.parent hx hp) hy

theorem followingAll {x y : N} (hx : S x) (hy : y ∈ t.followingAll x) : S y := by
  obtain ⟨z, hz, hy⟩ := List.mem_flatMap.mp hy
  obtain ⟨s, hs, hy⟩ := List.mem_flatMap.mp hy
  exact h.subtreeUpTo (h.siblings (h.self_or_ancestor hx hz) (.inr hs)) hy

theorem precedingAll {x y : N} (hx : S x) (hy : y ∈ t.precedingAll x) : S y := by
  obtain ⟨z, hz, hy⟩ := List.mem_flatMap.mp hy
  obtain ⟨s, hs, hy⟩ := List.mem_flatMap.mp hy
  have hs := h.siblings (h.self_or_ancestor hx hz) (.inl (List.mem_reverse.mp hs))
  exact h.subtreeUpTo hs (List.mem_reverse.mp hy)

theorem along {x y : N} {axis : Axis} (hx : S x) (hy : y ∈ t.along x axis) : S y := by
  cases axis with
  | child => exact h.children hx hy
  | descendant => exact h.descendants hx hy
  | attributes => exact h.attributes hx hy
  | self =>
    obtain rfl := List.mem_singleton.mp hy
    exact hx
  | descendantOrSelf =>
    rcases List.mem_cons.mp hy with rfl | hy
    · exact hx
    · exact h.descendants hx hy
  | followingSibling => exact h.siblings hx (.inr hy)
  -- an attribute looks around from its element
  | following =>
    simp only [HostTree.along] at hy
    split at hy
    · exact h.followingAll hx hy
    · rcases List.mem_append.mp hy with hy | hy
      · exact h.descendants (h.owner hx) hy
      · exact h.followingAll (h.owner hx) hy
  | namespaces => exact absurd hy List.not_mem_nil
  | parent => exact h.parent hx (Option.mem_toList.mp hy)
  | ancestor => exact h.ancestorsUpTo hx hy
  | precedingSibling => exact h.siblings hx (.inl (List.mem_reverse.mp hy))
  | preceding => exact h.precedingAll (h.owner hx) hy
  | ancestorOrSelf => exact h.self_or_ancestor hx hy

end ClosedOn

end ReactiveForm.HostTree
