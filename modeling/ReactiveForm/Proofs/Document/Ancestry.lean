import Mathlib.Data.List.Basic
import ReactiveForm.Proofs.Document.Order

/-!
# Document order

A node of a tree is found from the top by the places that the nodes on its branch have among their
siblings. Document order compares these lists of places one by one, so it is linear on every set of
nodes below one top in which the links agree.
-/

set_option autoImplicit false

namespace ReactiveForm

namespace Links

variable {N : Type} (t : Links N)

/-- The node stands `n` levels below `top`. -/
def AtDepth (top : N) : (n : Nat) → N → Prop
  | 0, x => x = top
  | n + 1, x => ∃ p, t.parent x = some p ∧ AtDepth top n p

/-- The way from a node down to another one. -/
inductive Down : N → List N → N → Prop where
  | here (x : N) : Down x [] x
  | step {x y z : N} {ys : List N} : t.parent y = some x → Down y ys z → Down x (y :: ys) z

variable {t} {top : N}

theorem Down.snoc {x y z : N} {ys : List N} (h : t.Down x ys y) (hz : t.parent z = some y) :
    t.Down x (ys ++ [z]) z := by
  induction h with
  | here x => exact .step hz (.here z)
  | step hy _ ih => exact .step hy (ih hz)

theorem Down.mem_of_closed {S : N → Prop} (hS : ∀ {x p}, S x → t.parent x = some p → S p)
    {x y : N} {ys : List N} (h : t.Down x ys y) (hy : S y) : S x ∧ ∀ z ∈ ys, S z := by
  induction h with
  | here x => exact ⟨hy, fun _ hz => absurd hz List.not_mem_nil⟩
  | step hp _ ih =>
    obtain ⟨hx, hys⟩ := ih hy
    refine ⟨hS hx hp, ?_⟩
    intro z hz
    rcases List.mem_cons.mp hz with rfl | hz
    · exact hx
    · exact hys z hz

theorem Down.eq_of_eq {x y z : N} {ys : List N} (h : t.Down x ys y) (h' : t.Down x ys z) :
    y = z := by
  induction h with
  | here x =>
    cases h'
    rfl
  | step _ _ ih =>
    cases h' with
    | step _ h' => exact ih h'

/-- A walk that may go far enough reaches the top. -/
theorem AtDepth.reverse_ancestorsUpTo (htop : t.parent top = none) {n m : Nat} {x : N}
    (h : t.AtDepth top n x) (hm : n ≤ m) :
    ∃ ys, (x :: t.ancestorsUpTo m x).reverse = top :: ys ∧ t.Down top ys x := by
  induction n generalizing m x with
  | zero =>
    obtain rfl := h
    refine ⟨[], ?_, .here x⟩
    cases m <;> simp [ancestorsUpTo, htop]
  | succ n ih =>
    obtain ⟨p, hp, hdepth⟩ := h
    obtain ⟨m, rfl⟩ : ∃ k, m = k + 1 := ⟨m - 1, by omega⟩
    obtain ⟨ys, hys, hdown⟩ := ih hdepth (by omega : n ≤ m)
    refine ⟨ys ++ [x], ?_, hdown.snoc hp⟩
    have hwalk : t.ancestorsUpTo (m + 1) x = p :: t.ancestorsUpTo m p := by
      simp [ancestorsUpTo, hp]
    rw [hwalk, List.reverse_cons, hys]
    rfl

/-- A walk that may go farther than to the top finds nothing there. -/
theorem AtDepth.ancestorsUpTo_eq (htop : t.parent top = none) {n m : Nat} {x : N}
    (h : t.AtDepth top n x) (hm : n ≤ m) : t.ancestorsUpTo m x = t.ancestorsUpTo n x := by
  induction n generalizing m x with
  | zero =>
    obtain rfl := h
    cases m <;> simp [ancestorsUpTo, htop]
  | succ n ih =>
    obtain ⟨p, hp, hdepth⟩ := h
    obtain ⟨m, rfl⟩ : ∃ k, m = k + 1 := ⟨m - 1, by omega⟩
    simp only [ancestorsUpTo, hp, ih hdepth (by omega : n ≤ m)]

/-- Above a node there are its parent and what is above that one. -/
theorem AtDepth.ancestors_of_parent (htop : t.parent top = none) {n : Nat} {x y : N}
    (h : t.AtDepth top n y) (hn : n ≤ t.height) (hp : t.parent y = some x) :
    t.ancestors y = x :: t.ancestors x := by
  cases n with
  | zero =>
    obtain rfl : y = top := h
    exact nomatch hp.symm.trans htop
  | succ n =>
    obtain ⟨p, hpar, hdepth⟩ := h
    obtain rfl : x = p := Option.some.inj (hp.symm.trans hpar)
    obtain ⟨m, hm⟩ : ∃ m, t.height = m + 1 := ⟨t.height - 1, by omega⟩
    have hstep : t.ancestorsUpTo (m + 1) y = x :: t.ancestorsUpTo m x := by
      simp only [ancestorsUpTo, hp]
    rw [ancestors, ancestors, hm, hstep, hdepth.ancestorsUpTo_eq htop (by omega : n ≤ m),
      hdepth.ancestorsUpTo_eq htop (by omega : n ≤ m + 1)]

theorem AtDepth.trans {x y : N} {n m : Nat} (hx : t.AtDepth top n x) (hy : t.AtDepth x m y) :
    t.AtDepth top (n + m) y := by
  induction m generalizing y with
  | zero =>
    obtain rfl := hy
    exact hx
  | succ m ih =>
    obtain ⟨p, hp, hy⟩ := hy
    exact ⟨p, hp, ih hy⟩

theorem AtDepth.mem_ancestorsUpTo {x y : N} {k m : Nat} (h : t.AtDepth x k y) (hk : k ≤ m) :
    x ∈ y :: t.ancestorsUpTo m y := by
  induction k generalizing m y with
  | zero =>
    obtain rfl := h
    exact List.mem_cons_self
  | succ k ih =>
    obtain ⟨p, hp, hdepth⟩ := h
    obtain ⟨m, rfl⟩ : ∃ n, m = n + 1 := ⟨m - 1, by omega⟩
    simp only [ancestorsUpTo, hp]
    exact List.mem_cons_of_mem y (ih hdepth (by omega))

theorem exists_atDepth {x y : N} {m : Nat} (h : x ∈ y :: t.ancestorsUpTo m y) :
    ∃ k, t.AtDepth x k y := by
  induction m generalizing y with
  | zero => exact ⟨0, (List.mem_singleton.mp h).symm⟩
  | succ m ih =>
    rcases List.mem_cons.mp h with rfl | h
    · exact ⟨0, rfl⟩
    · simp only [ancestorsUpTo] at h
      cases hp : t.parent y with
      | none => simp [hp] at h
      | some p =>
        obtain ⟨k, hdepth⟩ := ih (by simpa [hp] using h)
        exact ⟨k + 1, p, hp, hdepth⟩

theorem AtDepth.top_unique {x y z : N} {k : Nat} (hx : t.AtDepth x k z) (hy : t.AtDepth y k z) :
    x = y := by
  induction k generalizing z with
  | zero => exact hx.symm.trans hy
  | succ k ih =>
    obtain ⟨p, hp, hx⟩ := hx
    obtain ⟨q, hq, hy⟩ := hy
    obtain rfl : p = q := Option.some.inj (hp.symm.trans hq)
    exact ih hx hy

theorem AtDepth.depth_unique (htop : t.parent top = none) {n m : Nat} {x : N}
    (hn : t.AtDepth top n x) (hm : t.AtDepth top m x) : n = m := by
  induction n generalizing m x with
  | zero =>
    obtain rfl := hn
    cases m with
    | zero => rfl
    | succ m =>
      obtain ⟨p, hp, _⟩ := hm
      exact nomatch hp.symm.trans htop
  | succ n ih =>
    obtain ⟨p, hp, hn⟩ := hn
    cases m with
    | zero =>
      obtain rfl := hm
      exact nomatch hp.symm.trans htop
    | succ m =>
      obtain ⟨q, hq, hm⟩ := hm
      obtain rfl : p = q := Option.some.inj (hp.symm.trans hq)
      rw [ih hn hm]

theorem self_mem_subtreeUpTo (n : Nat) (x : N) : x ∈ t.subtreeUpTo n x := by
  cases n <;> simp [subtreeUpTo]

theorem mem_subtreeUpTo_child {n : Nat} {x y c : N} (hy : y ∈ t.subtreeUpTo n x)
    (hc : c ∈ t.children y) : c ∈ t.subtreeUpTo (n + 1) x := by
  induction n generalizing x with
  | zero =>
    obtain rfl := List.mem_singleton.mp hy
    exact List.mem_cons_of_mem _ (List.mem_flatMap.mpr ⟨c, hc, self_mem_subtreeUpTo 0 c⟩)
  | succ n ih =>
    rcases List.mem_cons.mp hy with rfl | hy
    · exact List.mem_cons_of_mem _ (List.mem_flatMap.mpr ⟨c, hc, self_mem_subtreeUpTo _ c⟩)
    · obtain ⟨d, hd, hy⟩ := List.mem_flatMap.mp hy
      exact List.mem_cons_of_mem _ (List.mem_flatMap.mpr ⟨d, hd, ih hy⟩)

/-- The nodes of a subtree are those that stand below its top, where the links agree. -/
theorem mem_subtreeUpTo_iff (hlinked : ∀ {p c}, c ∈ t.children p ↔ t.parent c = some p)
    {n : Nat} {x y : N} :
    y ∈ t.subtreeUpTo n x ↔ ∃ k ≤ n, t.AtDepth x k y := by
  constructor
  · -- listed in the subtree, so some steps below: a child is one step down, the rest by induction
    intro hy
    induction n generalizing x with
    | zero => exact ⟨0, Nat.le_refl 0, List.mem_singleton.mp hy⟩
    | succ n ih =>
      rcases List.mem_cons.mp hy with rfl | hy
      · exact ⟨0, Nat.zero_le _, rfl⟩
      · obtain ⟨c, hc, hy⟩ := List.mem_flatMap.mp hy
        obtain ⟨k, hk, hdepth⟩ := ih hy
        have hfirst : t.AtDepth x 1 c := ⟨x, hlinked.mp hc, rfl⟩
        exact ⟨1 + k, by omega, hfirst.trans hdepth⟩
  · -- the way back climbs from `y`: its parent is in the subtree one level less deep
    rintro ⟨k, hk, hdepth⟩
    induction n generalizing k y with
    | zero =>
      obtain rfl : k = 0 := by omega
      obtain rfl := hdepth
      exact List.mem_singleton_self y
    | succ n ih =>
      cases k with
      | zero =>
        obtain rfl := hdepth
        exact self_mem_subtreeUpTo _ y
      | succ k =>
        obtain ⟨p, hp, hdepth⟩ := hdepth
        exact mem_subtreeUpTo_child (ih k (by omega) hdepth) (hlinked.mpr hp)

end Links

/-- The place of a member of a list is its first place. -/
theorem idxOf?_of_mem {N : Type} [DecidableEq N] {x : N} {xs : List N} (hx : x ∈ xs) :
    xs.idxOf? x = some (xs.idxOf x) := by
  induction xs with
  | nil => exact absurd hx List.not_mem_nil
  | cons y ys ih =>
    rw [List.idxOf?_cons, List.idxOf_cons]
    by_cases hy : y = x
    · simp [hy]
    · have hmem : x ∈ ys := (List.mem_cons.mp hx).resolve_left (Ne.symm hy)
      have hbeq : (y == x) = false := beq_eq_false_iff_ne.mpr hy
      simp [hbeq, ih hmem]

theorem compare_append_cons (xs : List Nat) (n : Nat) (ns : List Nat) :
    compare xs (xs ++ n :: ns) = .lt := by
  induction xs with
  | nil => rfl
  | cons x xs ih =>
    rw [List.cons_append, List.compare_cons_cons, ih, (Nat.compare_eq_eq).mpr rfl]
    rfl

namespace HostTree

variable {N : Type} [DecidableEq N] (t : HostTree N)

/-- The nodes that a node lists below it. -/
def listed (p : N) : List N := t.attributes p ++ t.children p

/-- The places of the nodes on a way down, each among those listed by the one before. -/
def places : (above : N) → List N → List Nat
  | _, [] => []
  | p, x :: xs => (t.listed p).idxOf x :: places x xs

/-- The places on the branch of a node. -/
def address (x : N) : List Nat :=
  match t.branch x with
  | [] => []
  | top :: ys => t.places top ys

/-- When a way goes on, the places on the rest are added. -/
theorem places_append {p x : N} {xs : List N} (h : t.Down p xs x) (ys : List N) :
    t.places p (xs ++ ys) = t.places p xs ++ t.places x ys := by
  induction h with
  | here x => rfl
  | step _ _ ih => simp [places, ih]

/-- The nodes of which `S` holds stand below `top`, and siblings among them are listed by their
parent. -/
structure RootedOn (top : N) (S : N → Prop) : Prop where
  top_parent : t.parent top = none
  closed : ∀ {x p}, S x → t.parent x = some p → S p
  depth : ∀ {x}, S x → ∃ n ≤ t.height, t.AtDepth top n x
  listed : ∀ {x y p}, S x → S y → t.parent x = some p → t.parent y = some p → x ≠ y →
    x ∈ t.listed p ∧ y ∈ t.listed p

namespace RootedOn

variable {t} {top : N} {S : N → Prop} (h : t.RootedOn top S)

include h

omit [DecidableEq N] in
theorem branch_eq {x : N} (hx : S x) : ∃ ys, t.branch x = top :: ys ∧ t.Down top ys x := by
  obtain ⟨n, hn, hdepth⟩ := h.depth hx
  exact hdepth.reverse_ancestorsUpTo h.top_parent hn

omit [DecidableEq N] in
theorem branch_child {x y : N} (hy : S y) (hp : t.parent y = some x) :
    t.branch y = t.branch x ++ [y] := by
  obtain ⟨n, hn, hdepth⟩ := h.depth hy
  have hwalk := hdepth.ancestors_of_parent h.top_parent hn hp
  rw [Links.branch, Links.branch, hwalk]
  simp

omit [DecidableEq N] in
theorem branch_down {x y : N} {ys : List N} (hdown : t.Down x ys y) (hy : S y) :
    t.branch y = t.branch x ++ ys := by
  induction hdown with
  | here x => exact (List.append_nil _).symm
  | step hp hdown ih =>
    obtain ⟨hmid, _⟩ := hdown.mem_of_closed h.closed hy
    rw [ih hy, h.branch_child hmid hp, List.append_assoc]
    rfl

theorem address_down {x y : N} {ys : List N} (hdown : t.Down x ys y) (hy : S y) :
    t.address y = t.address x ++ t.places x ys := by
  obtain ⟨hx, _⟩ := hdown.mem_of_closed h.closed hy
  obtain ⟨xs, hxs, hxdown⟩ := h.branch_eq hx
  have hys := h.branch_down hdown hy
  rw [hxs, List.cons_append] at hys
  simp only [address, hxs, hys, places_append t hxdown]

theorem eq_of_idxOf_eq {x y p : N} (hx : S x) (hy : S y) (hxp : t.parent x = some p)
    (hyp : t.parent y = some p) (heq : (t.listed p).idxOf x = (t.listed p).idxOf y) : x = y := by
  by_cases hxy : x = y
  · exact hxy
  · obtain ⟨hxl, _⟩ := h.listed hx hy hxp hyp hxy
    exact (List.idxOf_inj hxl).mp heq

/-- The places on a way down tell where it leads. -/
theorem places_inj {x y z : N} {ys zs : List N} (hy : t.Down x ys y) (hz : t.Down x zs z)
    (hS : S y) (hS' : S z) (heq : t.places x ys = t.places x zs) : ys = zs := by
  induction hy generalizing zs with
  | here x =>
    cases hz with
    | here => rfl
    | step _ _ => exact absurd heq (by simp [places])
  | step hp hdown ih =>
    cases hz with
    | here => exact absurd heq (by simp [places])
    | step hp' hdown' =>
      obtain ⟨hidx, hrest⟩ := List.cons.inj heq
      have hv := (hdown.mem_of_closed h.closed hS).1
      have hw := (hdown'.mem_of_closed h.closed hS').1
      obtain rfl := h.eq_of_idxOf_eq hv hw hp hp' hidx
      rw [ih hdown' hS hrest]

theorem address_inj {x y : N} (hx : S x) (hy : S y) (heq : t.address x = t.address y) :
    x = y := by
  obtain ⟨xs, hxs, hxdown⟩ := h.branch_eq hx
  obtain ⟨ys, hys, hydown⟩ := h.branch_eq hy
  simp only [address, hxs, hys] at heq
  obtain rfl := h.places_inj hxdown hydown hx hy heq
  exact hxdown.eq_of_eq hydown

variable [Ord N]

theorem compareSiblings_eq {x y p : N} (hx : S x) (hy : S y) (hxp : t.parent x = some p)
    (hyp : t.parent y = some p) (hxy : x ≠ y) :
    t.compareSiblings p x y = compare ((t.listed p).idxOf x) ((t.listed p).idxOf y) := by
  obtain ⟨hxl, hyl⟩ := h.listed hx hy hxp hyp hxy
  have hplace {z : N} (hz : z ∈ t.listed p) :
      (t.attributes p ++ t.children p).idxOf? z = some ((t.listed p).idxOf z) := idxOf?_of_mem hz
  simp only [compareSiblings, hplace hxl, hplace hyl]

/-- Branches compare as the places on them do. -/
theorem compareBranches_eq (ends : Ordering) {x y z : N} {ys zs : List N} (hy : t.Down x ys y)
    (hz : t.Down x zs z) (hS : S y) (hS' : S z) :
    t.compareBranches ends (some x) ys zs = compare (t.places x ys) (t.places x zs) := by
  induction hy generalizing zs with
  | here x =>
    cases hz with
    | here => rfl
    | step _ _ => rfl
  | @step x u v us hp hdown ih =>
    cases hz with
    | here => rfl
    | @step _ w _ ws hp' hdown' =>
      have hu := (hdown.mem_of_closed h.closed hS).1
      have hw := (hdown'.mem_of_closed h.closed hS').1
      -- equal first steps say nothing, and the paths below them decide; different ones decide at
      -- once
      by_cases huw : u = w
      · subst huw
        simp only [compareBranches, if_pos, places, List.compare_cons_cons]
        rw [ih hdown' hS, (Nat.compare_eq_eq).mpr rfl]
        rfl
      · have hne : (t.listed x).idxOf u ≠ (t.listed x).idxOf w := by
          intro heq
          exact huw (h.eq_of_idxOf_eq hu hw hp hp' heq)
        simp only [compareBranches, if_neg huw, places, List.compare_cons_cons]
        rw [h.compareSiblings_eq hu hw hp hp' huw]
        cases hc : compare ((t.listed x).idxOf u) ((t.listed x).idxOf w) with
        | lt => rfl
        | eq => exact absurd (Nat.compare_eq_eq.mp hc) hne
        | gt => rfl

theorem compareByAncestry_eq {x y : N} (hx : S x) (hy : S y) :
    t.compareByAncestry x y = compare (t.address x) (t.address y) := by
  obtain ⟨xs, hxs, hxdown⟩ := h.branch_eq hx
  obtain ⟨ys, hys, hydown⟩ := h.branch_eq hy
  by_cases hxy : x = y
  · subst hxy
    rw [compareByAncestry, if_pos rfl]
    exact (Std.LawfulEqCmp.compare_eq_iff_eq.mpr rfl).symm
  · simp only [compareByAncestry, if_neg hxy, address, hxs, hys, compareBranches, if_pos]
    exact h.compareBranches_eq _ hxdown hydown hx hy

/-- A node stands before its children. -/
theorem lt_of_parent {x y : N} (hy : S y) (hp : t.parent y = some x) :
    t.compareByAncestry x y = .lt := by
  rw [h.compareByAncestry_eq (h.closed hy hp) hy, h.address_down (.step hp (.here y)) hy]
  exact compare_append_cons _ _ _

theorem linearOn_compareByAncestry : LinearOn S t.compareByAncestry :=
  .of_rank t.address h.address_inj h.compareByAncestry_eq

end RootedOn

end HostTree

end ReactiveForm
