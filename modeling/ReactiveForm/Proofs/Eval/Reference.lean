import ReactiveForm.Outcome
import ReactiveForm.Proofs.Eval.Echo
import ReactiveForm.Proofs.Number.Whole
import ReactiveForm.Proofs.Tree.Reference

/-!
# Following references

The path that a reference is read as leads to the node with the reference and to no other. Each of
its steps finds the nodes of one name below an element; where these are the instances of a range, the
place tells which one is meant.
-/

set_option autoImplicit false

namespace ReactiveForm

namespace Reading

variable {N α β : Type}

/-- The value comes out, whatever has been read before. -/
def Gives (m : Reading N α) (a : α) : Prop := ∀ s, (m.run s).1 = .ok a

namespace Gives

variable {m : Reading N α} {a : α}

theorem pure (a : α) : Gives (Pure.pure a : Reading N α) a := fun _ => rfl

theorem note [DecidableEq N] (xs : List N) : Gives (Reading.note xs) () := fun _ => rfl

theorem bind {f : α → Reading N β} {b : β} (hm : Gives m a) (hf : Gives (f a) b) :
    Gives (m >>= f) b := by
  intro s
  have hrun : m.run s = (.ok a, (m.run s).2) := Prod.ext (hm s) rfl
  rw [run_bind_ok hrun, hf]

end Gives

end Reading

open Reading (Gives)

open ReactiveForm.Expr (Leg)

namespace Environment

/-! ## Places -/

/-- What stands at the place `k`, counted from `position`. -/
def picked {N : Type} (k position : Nat) (xs : List N) : List N :=
  if position ≤ k then xs[k - position]?.toList else []

theorem picked_nil {N : Type} (k position : Nat) : picked k position ([] : List N) = [] := by
  simp [picked]

theorem picked_cons {N : Type} (k position : Nat) (x : N) (xs : List N) :
    picked k position (x :: xs)
      = if k = position then x :: picked k (position + 1) xs else picked k (position + 1) xs := by
  unfold picked
  rcases Nat.lt_trichotomy k position with hlt | rfl | hlt
  · simp [Nat.not_le.mpr hlt, Nat.ne_of_lt hlt, Nat.not_le.mpr (Nat.lt_succ_of_lt hlt)]
  · simp
  · obtain ⟨j, rfl⟩ := Nat.exists_eq_add_of_lt hlt
    have hj : position + j + 1 - position = j + 1 := by omega
    have hj' : position + j + 1 - (position + 1) = j := by omega
    rw [if_pos (by omega), if_neg (by omega), if_pos (by omega), hj, hj', List.getElem?_cons_succ]

/-- Where a condition holds at one place only, the node at that place is selected. -/
theorem gives_select {N : Type} {holds : Focus N → Reading N Bool} {k : Nat}
    (hholds : ∀ focus, 0 < focus.position → focus.position < 2 ^ 53 →
      Gives (holds focus) (decide (k = focus.position)))
    (size : Nat) {position : Nat} (xs : List N) (hposition : 0 < position)
    (hfew : position + xs.length ≤ 2 ^ 53) :
    Gives (select holds size position xs) (picked k position xs) := by
  induction xs generalizing position with
  | nil =>
    rw [picked_nil]
    exact .pure []
  | cons x xs ih =>
    rw [List.length_cons] at hfew
    have hlast : position < 2 ^ 53 := by omega
    have hx := hholds ⟨x, position, size⟩ hposition hlast
    have hrest := ih (Nat.succ_pos position) (by omega)
    rw [picked_cons]
    refine .bind hx (.bind hrest ?_)
    -- only the position asked for is kept
    by_cases hk : k = position
    · simp only [hk, decide_true, if_true]
      exact .pure _
    · simp only [hk, decide_false, if_false]
      exact .pure _

/-- A predicate that is a whole number picks the node at that place. -/
theorem gives_place (env : Environment ViewNode) {k : Nat} (hpos : 0 < k) {xs : List ViewNode}
    (hk : k ≤ xs.length) (hfew : xs.length < 2 ^ 53) :
    Gives (env.evalPredicates [.number (Number.ofDigits (Nat.toDigits 10 k) [])] xs)
      xs[k - 1]?.toList := by
  have hdigits := Number.digitsValue_toDigits k
  have hholds (focus : Focus ViewNode) (hfirst : 0 < focus.position)
      (hlast : focus.position < 2 ^ 53) :
      Gives (do pure (admits focus.position
          (← env.eval (.number (Number.ofDigits (Nat.toDigits 10 k) [])) focus)))
        (decide (k = focus.position)) := by
    -- the digits stand for `k` exactly, so the comparison of floats is one of whole numbers
    have hequal : (Number.ofDigits (Nat.toDigits 10 k) [] == Float.ofNat focus.position)
        = decide (k = focus.position) := by
      have hcompare : (Number.ofDigits (Nat.toDigits 10 k) [] == Float.ofNat focus.position)
          = decide (Number.digitsValue (Nat.toDigits 10 k) = focus.position) :=
        Number.ofDigits_beq_ofNat (by omega) (by omega) hfirst hlast
      rwa [hdigits] at hcompare
    rw [← hequal]
    simp only [eval]
    exact .bind (.pure _) (.pure _)
  have hselect := gives_select hholds xs.length xs Nat.one_pos (by omega)
  rw [picked, if_pos (Nat.succ_le_of_lt hpos)] at hselect
  simp only [evalPredicates]
  exact .bind hselect (.pure _)

/-! ## Steps -/

variable {env : Environment ViewNode}

theorem gives_candidates (env : Environment ViewNode) (axis : Axis) (test : NodeTest)
    (isLast : Bool) (x : ViewNode) :
    Gives (env.candidates axis test isLast x)
      ((env.document.along x axis).filter (env.document.passes axis test)) := by
  unfold candidates
  cases isLast with
  | true =>
    simp only [if_true]
    split
    · exact .bind (.note _) (.bind (.note _) (.pure _))
    · exact .bind (.note _) (.pure _)
  | false => exact .pure _

/-- Steps that lead from one node to one node are taken one after the other. -/
theorem gives_evalSteps_cons {s : Step Expr} {rest : List (Step Expr)} {x y : ViewNode}
    {ys : List ViewNode} (hstep : ∀ isLast, Gives (env.evalStep s isLast x) [y])
    (hrest : Gives (env.evalSteps rest [y]) ys) : Gives (env.evalSteps (s :: rest) [x]) ys := by
  have hfound : Gives (collect (env.evalStep s rest.isEmpty) [x]) [y] :=
    .bind (hstep _) (.bind (.pure []) (.pure [y]))
  simp only [evalSteps]
  exact .bind hfound hrest

theorem passes_element (t : Tree) (name : String) (x : NodeId) :
    t.document.passes .child (.name name) (.element x) = (t.name? x == some name) := by
  have hname : t.document.name (.element x) = t.name? x := by
    rw [Tree.name?, Tree.definition?, Option.map_map]
    rfl
  rw [HostTree.passes, hname]
  exact Bool.true_and _

section

variable {t : Tree} (h : t.Addressed) (hdocument : env.document = t.document)

include h hdocument

/-- The first step leads from the document to the root. -/
theorem gives_root (isLast : Bool) :
    Gives (env.evalStep (t.leg t.root).step isLast .document) [.element t.root] := by
  obtain ⟨n, hn, _⟩ := h.wellFormed.connected.root_live
  have hplace : (t.leg t.root).place = none := by
    simp [Tree.leg, h.wellFormed.connected.parent_root]
  have hfound : (env.document.along .document .child).filter
      (env.document.passes .child (.name (t.leg t.root).name)) = [.element t.root] := by
    rw [hdocument]
    refine List.filter_eq_self.mpr fun x hx => ?_
    obtain rfl := List.mem_singleton.mp hx
    rw [passes_element, Tree.name?_of_leg ⟨n, hn⟩, beq_self_eq_true]
  have hcandidates := env.gives_candidates .child (.name (t.leg t.root).name) isLast .document
  rw [hfound] at hcandidates
  simp only [Leg.step, hplace, evalStep]
  exact .bind hcandidates (.pure _)

/-- A further step leads from an element to a node below it. -/
theorem gives_leg (hfew : ∀ range, t.isRange range → (t.children range).length < 2 ^ 53)
    {id q : NodeId} (hq : t.outerNode id = some q) (hid : t.isRange id = false) (isLast : Bool) :
    Gives (env.evalStep (t.leg id).step isLast (.element q)) [.element id] := by
  obtain ⟨hplain, c, hc, hname, hcases⟩ := h.exists_stem hq
  have hleaf := h.wellFormed.not_isLeaf_of_outerNode hq
  have hfound : (env.document.along (.element q) .child).filter
      (env.document.passes .child (.name (t.leg id).name))
        = (if t.isRange c then t.children c else [c]).map .element := by
    -- of what is below `q` the name keeps the instances of one repetition, or one plain node
    have hbelow : t.document.along (.element q) .child = (t.innerNodes q).map .element := by
      change t.viewChildren (.element q) = _
      rw [Tree.viewChildren, if_neg (by simp [hleaf])]
    have htest : t.document.passes .child (.name (t.leg id).name) ∘ ViewNode.element
        = fun x => t.name? x == t.name? c := by
      funext x
      rw [Function.comp_apply, passes_element, hname]
    rw [hdocument, hbelow, List.filter_map, htest, h.namesakes hplain hc]
  have hcandidates := env.gives_candidates .child (.name (t.leg id).name) isLast (.element q)
  rw [hfound] at hcandidates
  simp only [Leg.step, evalStep]
  refine .bind hcandidates ?_
  -- a plain node is alone of its name; an instance is one of several and has its place
  rcases hcases with ⟨rfl, hplace⟩ | ⟨hrange, hmem, hplace⟩
  · rw [hplace, if_neg (by simp [hid])]
    exact .pure _
  · have hlength : ((t.children c).map ViewNode.element).length = (t.children c).length :=
      List.length_map _
    have hplaced : (t.children c).idxOf id + 1 ≤ ((t.children c).map ViewNode.element).length := by
      rw [hlength]
      exact List.idxOf_lt_length_of_mem hmem
    have hpick := env.gives_place (Nat.succ_pos _) hplaced (by rw [hlength]; exact hfew c hrange)
    rw [Nat.succ_sub_one, List.getElem?_map, List.getElem?_idxOf hmem] at hpick
    rw [hplace, if_pos hrange]
    exact hpick

/-- The path of a reference leads to its node. -/
theorem gives_legs (hfew : ∀ range, t.isRange range → (t.children range).length < 2 ^ 53)
    {id : NodeId} (hreached : t.Reached id) (hid : t.isRange id = false)
    {rest : List (Step Expr)} {ys : List ViewNode}
    (hrest : Gives (env.evalSteps rest [.element id]) ys) :
    Gives (env.evalSteps ((t.legs id).map Leg.step ++ rest) [.document]) ys := by
  induction hreached generalizing rest with
  | root =>
    rw [h.wellFormed.legs_root]
    exact gives_evalSteps_cons (gives_root h hdocument) hrest
  | under hq _ ih =>
    rw [h.wellFormed.legs_of_outerNode hq, List.map_append, List.append_assoc]
    exact ih (h.exists_stem hq).1 (gives_evalSteps_cons (gives_leg h hdocument hfew hq hid) hrest)

/-- The value of this path is the node alone. -/
theorem gives_path (hfew : ∀ range, t.isRange range → (t.children range).length < 2 ^ 53)
    {id : NodeId} (hreached : t.Reached id) (hid : t.isRange id = false) :
    Gives (env.eval (.path .root ((t.legs id).map Leg.step)) env.focus) (.nodes [.element id]) := by
  have hstart : Gives (env.evalStart .root env.focus) [.document] := by
    simp only [evalStart, hdocument]
    exact .pure _
  have hlast : Gives (env.evalSteps [] [.element id]) [.element id] := by
    simp only [evalSteps]
    exact .pure _
  have hsteps := gives_legs h hdocument hfew hreached hid hlast
  rw [List.append_nil] at hsteps
  have hsome : ((t.legs id).map Leg.step).isEmpty = false := by simp [t.legs_ne_nil id]
  simp only [eval, hsome]
  exact .bind hstart (.bind hsteps (.pure _))

end

end Environment

end ReactiveForm
