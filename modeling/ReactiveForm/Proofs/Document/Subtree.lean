import Mathlib.Logic.Relation
import ReactiveForm.Proofs.Document.Ancestry

/-!
# Subtrees

Where the links agree below a top, the height of the tree is never felt: a subtree is its top
followed by the subtrees of the children, and it lists what can be reached from the top by way of
children. What holds of a node as soon as it holds of its children holds of all nodes.
-/

set_option autoImplicit false

namespace ReactiveForm.Links

variable {N : Type}

/-- The second node is met on the way down from the first one. -/
def Reaches (t : Links N) : N → N → Prop := Relation.ReflTransGen fun x y => y ∈ t.children x

/-- The nodes of which `S` holds make up a tree below `top`. -/
structure TreeOn (t : Links N) (top : N) (S : N → Prop) : Prop where
  top_mem : S top
  top_parent : t.parent top = none
  closed : ∀ {x p}, S x → t.parent x = some p → S p
  depth : ∀ {x}, S x → ∃ n ≤ t.height, t.AtDepth top n x
  mem_children : ∀ {p x}, S p → (x ∈ t.children p ↔ S x ∧ t.parent x = some p)
  nodup_children : ∀ {p}, S p → (t.children p).Nodup

variable {t : Links N} {top : N} {S : N → Prop}

namespace TreeOn

variable (h : t.TreeOn top S)

include h

theorem child {x c : N} (hx : S x) (hc : c ∈ t.children x) : S c ∧ t.parent c = some x :=
  (h.mem_children hx).mp hc

/-- A child stands one level deeper, and the height allows for that level. -/
theorem depth_child {x c : N} {n : Nat} (hx : S x) (hdepth : t.AtDepth top n x)
    (hc : c ∈ t.children x) : S c ∧ t.AtDepth top (n + 1) c ∧ n + 1 ≤ t.height := by
  obtain ⟨hmem, hp⟩ := h.child hx hc
  obtain ⟨m, hm, hmdepth⟩ := h.depth hmem
  have hstep : t.AtDepth top (n + 1) c := ⟨x, hp, hdepth⟩
  obtain rfl := hmdepth.depth_unique h.top_parent hstep
  exact ⟨hmem, hmdepth, hm⟩

theorem parent_eq_none_iff {x : N} (hx : S x) : t.parent x = none ↔ x = top := by
  constructor
  · intro hnone
    obtain ⟨n, _, hdepth⟩ := h.depth hx
    cases n with
    | zero => exact hdepth
    | succ n =>
      obtain ⟨p, hp, _⟩ := hdepth
      exact nomatch hnone.symm.trans hp
  · rintro rfl
    exact h.top_parent

/-- What holds of a node as soon as it holds of its children holds of every node. -/
theorem induction {P : N → Prop} (step : ∀ x, S x → (∀ c ∈ t.children x, P c) → P x) {x : N}
    (hx : S x) : P x := by
  obtain ⟨n, _, hdepth⟩ := h.depth hx
  -- the levels left below a node become fewer
  induction hk : t.height - n using Nat.strongRecOn generalizing x n with
  | ind k ih =>
    refine step x hx fun c hc => ?_
    obtain ⟨hmem, hcdepth, hle⟩ := h.depth_child hx hdepth hc
    exact ih (t.height - (n + 1)) (by omega) hmem (n + 1) hle hcdepth rfl

theorem children_eq_nil {x : N} {n : Nat} (hx : S x) (hdepth : t.AtDepth top n x)
    (hn : t.height ≤ n) : t.children x = [] := by
  rw [List.eq_nil_iff_forall_not_mem]
  intro c hc
  obtain ⟨_, _, hlt⟩ := h.depth_child hx hdepth hc
  omega

/-- Levels below all nodes add nothing to a subtree. -/
theorem subtreeUpTo_eq {n k m : Nat} {x : N} (hx : S x) (hdepth : t.AtDepth top n x)
    (hk : t.height ≤ n + k) (hm : t.height ≤ n + m) : t.subtreeUpTo k x = t.subtreeUpTo m x := by
  induction k generalizing n m x with
  | zero =>
    cases m with
    | zero => rfl
    | succ m =>
      rw [subtreeUpTo, subtreeUpTo, h.children_eq_nil hx hdepth hk]
      rfl
  | succ k ih =>
    cases m with
    | zero =>
      rw [subtreeUpTo, subtreeUpTo, h.children_eq_nil hx hdepth hm]
      rfl
    | succ m =>
      rw [subtreeUpTo, subtreeUpTo]
      refine congrArg (x :: ·) (List.flatMap_congr fun c hc => ?_)
      obtain ⟨hmem, hcdepth, _⟩ := h.depth_child hx hdepth hc
      exact ih hmem hcdepth (by omega) (by omega)

theorem subtree_eq {x : N} (hx : S x) : t.subtree x = x :: (t.children x).flatMap t.subtree := by
  obtain ⟨n, _, hdepth⟩ := h.depth hx
  exact h.subtreeUpTo_eq hx hdepth (k := t.height) (m := t.height + 1) (by omega) (by omega)

theorem mem_subtree {x y : N} (hx : S x) : y ∈ t.subtree x ↔ t.Reaches x y := by
  refine h.induction (P := fun x => y ∈ t.subtree x ↔ t.Reaches x y) ?_ hx
  intro x hx ih
  rw [h.subtree_eq hx, List.mem_cons, List.mem_flatMap, Reaches, Relation.ReflTransGen.cases_head_iff]
  exact or_congr eq_comm (exists_congr fun c => and_congr_right fun hc => ih c hc)

/-- What can be reached from a node belongs to the tree and stands below that node. -/
theorem exists_down {x y : N} (hx : S x) (hxy : t.Reaches x y) : S y ∧ ∃ ys, t.Down x ys y := by
  induction hxy with
  | refl => exact ⟨hx, [], .here x⟩
  | tail _ hc ih =>
    obtain ⟨hmem, ys, hdown⟩ := ih
    obtain ⟨hc, hp⟩ := h.child hmem hc
    exact ⟨hc, _, hdown.snoc hp⟩

/-- The nodes of the tree are those that can be reached from its top. -/
theorem mem_iff_reaches {x : N} : S x ↔ t.Reaches top x := by
  refine ⟨fun hx => ?_, fun hreach => (h.exists_down h.top_mem hreach).1⟩
  obtain ⟨n, _, hdepth⟩ := h.depth hx
  induction n generalizing x with
  | zero =>
    obtain rfl := hdepth
    exact .refl
  | succ n ih =>
    obtain ⟨p, hp, hdepth⟩ := hdepth
    have hpmem := h.closed hx hp
    exact (ih hpmem (by omega) hdepth).tail ((h.mem_children hpmem).mpr ⟨hx, hp⟩)

end TreeOn

end ReactiveForm.Links
