import Mathlib.Data.Fintype.Basic
import ReactiveForm.Proofs.Document.Axes
import ReactiveForm.Proofs.Document.Preorder
import ReactiveForm.Proofs.Eval.Steady

/-!
# Node-sets come in document order

Steps gather nodes in the order of their axes, from nodes that may share what they find; what a
step or a union has gathered is sorted, and predicates only ever leave nodes out. So in a finite
tree every node-set that an evaluation gives is a part of the preorder listing, and a union does
not depend on the order of its operands.
-/

set_option autoImplicit false

namespace ReactiveForm

open Reading (Steady Yields)

variable {N : Type}

theorem HostTree.IsForest.closedOn {t : HostTree N} {nodes : Finset N} (h : t.IsForest nodes) :
    t.ClosedOn (· ∈ nodes) where
  parent := h.closed
  attributes hx hy := ((h.mem_listed hx).mp (List.mem_append_left _ hy)).1
  children hx hy := ((h.mem_listed hx).mp (List.mem_append_right _ hy)).1

variable [DecidableEq N] [Ord N]

/-! ## Values in document order -/

/-- The nodes of a node-set stand in document order, each once. -/
def Value.Ordered (d : Document N) (nodes : Finset N) : Value N → Prop
  | .atom _ => True
  | .nodes xs => Ascends d.order xs ∧ ∀ x ∈ xs, x ∈ nodes

namespace Value

variable {d : Document N} {nodes : Finset N}

theorem IsAtom.ordered {v : Value N} (h : v.IsAtom) : v.Ordered d nodes := by
  cases v with
  | atom a => trivial
  | nodes xs => exact h.elim

theorem Ordered.toNodes {v : Value N} (h : v.Ordered d nodes) {xs : List N}
    (hxs : v.toNodes = .ok xs) : Ascends d.order xs ∧ ∀ x ∈ xs, x ∈ nodes := by
  obtain rfl := eq_nodes hxs
  exact h

theorem ordered_singleton {x : N} (hx : x ∈ nodes) :
    Ascends d.order [x] ∧ ∀ y ∈ [x], y ∈ nodes :=
  ⟨List.pairwise_singleton _ x, List.forall_mem_singleton.mpr hx⟩

end Value

namespace Document.IsTree

variable {d : Document N} {nodes : Finset N} {top : N} (h : d.IsTree nodes top)

include h

theorem linearOn : LinearOn (· ∈ nodes) d.order := by
  have hlinear : LinearOn (· ∈ nodes) d.compareByAncestry :=
    h.toIsTree.rootedOn.linearOn_compareByAncestry
  constructor
  · intro x y hx hy
    rw [h.order_eq hx hy]
    exact hlinear.eq_iff hx hy
  · intro x y hx hy
    rw [h.order_eq hx hy, h.order_eq hy hx]
    exact hlinear.swap hx hy
  · intro x y z hx hy hz
    rw [h.order_eq hx hy, h.order_eq hy hz, h.order_eq hx hz]
    exact hlinear.trans hx hy hz

theorem ordered_nodeSet {xs : List N} (hxs : ∀ x ∈ xs, x ∈ nodes) :
    Ascends d.order (d.nodeSet xs) ∧ ∀ x ∈ d.nodeSet xs, x ∈ nodes :=
  ⟨d.ascends_nodeSet h.linearOn hxs, fun x hx => hxs x ((d.mem_nodeSet x xs).mp hx)⟩

theorem sublist_preorder {xs : List N} (hxs : Ascends d.order xs) (hmem : ∀ x ∈ xs, x ∈ nodes) :
    xs.Sublist (d.preorder top) := by
  refine h.toIsTree.sublist_preorder (hxs.imp_of_mem fun {x y} hx hy hlt => ?_) hmem
  rwa [← h.order_eq (hmem x hx) (hmem y hy)]

end Document.IsTree

/-! ## Evaluation -/

namespace Environment

omit [DecidableEq N] [Ord N] in
theorem collect_mem {S : N → Prop} {f : N → Reading N (List N)}
    (hf : ∀ x, S x → Yields (f x) fun ys => ∀ y ∈ ys, S y) {xs : List N} (hxs : ∀ x ∈ xs, S x) :
    Yields (collect f xs) fun ys => ∀ y ∈ ys, S y := by
  induction xs with
  | nil => exact .pure fun _ hy => absurd hy List.not_mem_nil
  | cons x xs ih =>
    refine (hf x (hxs x List.mem_cons_self)).bind fun ys hys => ?_
    refine (ih fun y hy => hxs y (List.mem_cons_of_mem x hy)).bind fun zs hzs => .pure ?_
    exact List.forall_mem_append.mpr ⟨hys, hzs⟩

/-- The environment of an evaluation with built-in functions at a node of a finite tree. -/
structure Orderly (env : Environment N) (nodes : Finset N) (top : N) : Prop where
  document : env.document.IsTree nodes top
  current : env.current ∈ nodes
  library : ∀ e ∈ env.library.entries, Builtin.Regular e

variable {env : Environment N} {nodes : Finset N} {top : N} (h : env.Orderly nodes top)

include h

theorem Orderly.steady : env.library.Steady := fun e he => (h.library e he).steady

theorem evalStep_mem (s : Step Expr) (isLast : Bool) {x : N} (hx : x ∈ nodes) :
    Yields (env.evalStep s isLast x) fun ys => ∀ y ∈ ys, y ∈ nodes := by
  obtain ⟨axis, test, predicates⟩ := s
  have hps := steady_eval_all h.steady predicates
  simp only [evalStep]
  refine (steady_candidates axis test isLast x).bind fun found hfound => ?_
  refine (evalPredicates_sublist hps found).imp fun ys hys y hy => ?_
  have hy := hys.subset hy
  rw [hfound] at hy
  exact h.document.closedOn.along hx (List.mem_filter.mp hy).1

/-- Each step puts what it finds into document order. -/
theorem evalSteps_ordered (steps : List (Step Expr)) {xs : List N}
    (hxs : Ascends env.document.order xs ∧ ∀ x ∈ xs, x ∈ nodes) :
    Yields (env.evalSteps steps xs) fun ys => Ascends env.document.order ys ∧ ∀ y ∈ ys, y ∈ nodes := by
  induction steps generalizing xs with
  | nil =>
    simp only [evalSteps]
    exact .pure hxs
  | cons s steps ih =>
    simp only [evalSteps]
    have hstep := collect_mem (fun x hx => evalStep_mem h s steps.isEmpty hx) hxs.2
    exact hstep.bind fun found hfound => ih (h.document.ordered_nodeSet hfound)

theorem apply_ordered {name : String} {f : Function N} (hf : (name, f) ∈ env.library.entries)
    (hname : name ≠ "if") (focus : Focus N) (args : List (Value N)) :
    Yields (f.apply (env.call focus) args) (Value.Ordered env.document nodes) := by
  obtain ⟨_, hresult, hbody⟩ := h.library _ hf
  have hvalue (vs : List (Value N)) :
      Yields (f.body (env.call focus) vs) (Value.Ordered env.document nodes) := by
    rcases hbody with hbody | ⟨hif, _⟩ | hbody
    · exact (hbody _ vs).imp fun _ hv => hv.ordered
    · exact absurd hif hname
    · rw [hbody]
      exact .after (.note _) fun _ => .pure (Value.ordered_singleton h.current)
  unfold Function.apply
  refine .after (Reading.inherited_steady.convertAll _ _ _) fun vs => (hvalue vs).bind fun v hv => ?_
  rw [hresult]
  exact .pure hv

omit h

theorem evalNodes_of_ordered {v : Value N} (hv : v.Ordered env.document nodes) :
    Yields (Reading.ofExcept v.toNodes : Reading N (List N))
      fun xs => Ascends env.document.order xs ∧ ∀ x ∈ xs, x ∈ nodes :=
  .ofExcept fun _ hxs => hv.toNodes hxs

mutual

theorem eval_ordered (h : env.Orderly nodes top) :
    (e : Expr) → ∀ focus, focus.node ∈ nodes →
      Yields (env.eval e focus) (Value.Ordered env.document nodes)
  | .text _ => fun focus _ => by
    simp only [eval]
    exact .pure trivial
  | .number _ => fun focus _ => by
    simp only [eval]
    exact .pure trivial
  | .variable name => fun focus _ => by
    simp only [eval]
    split
    · exact .pure trivial
    · exact .fail _
  | .call name args => fun focus hfocus => by
    have hsteady := steady_eval_all h.steady args
    have hargs := eval_ordered_all h args
    simp only [eval]
    refine Yields.bind (P := fun f => (name, f) ∈ env.library.entries)
      (.ofExcept fun f hf => Library.mem_of_resolve hf) fun f hf => ?_
    split
    · exact evalChoice_yields hsteady focus fun e he => hargs e he focus hfocus
    next hif =>
      refine .after (steady_evalAll hsteady focus) fun vs => apply_ordered h hf ?_ focus vs
      rintro rfl
      -- the built-in `if` was taken by the branch above, which computes what it chooses only
      have hbuiltin : f.builtin := (h.library _ hf).builtin
      exact hif (by simp [hbuiltin])
  | .binary _ l r => fun focus _ =>
    (binary_isAtom (steady_eval h.steady l) (steady_eval h.steady r) focus).imp
      fun _ hv => hv.ordered
  | .negate e => fun focus _ => by
    simp only [eval]
    exact .after (steady_eval h.steady e focus) fun _ => .pure trivial
  | .union l r => fun focus hfocus => by
    simp only [eval]
    refine (eval_ordered h l focus hfocus).bind fun v hv => ?_
    refine (evalNodes_of_ordered hv).bind fun xs hxs => ?_
    refine (eval_ordered h r focus hfocus).bind fun w hw => ?_
    refine (evalNodes_of_ordered hw).bind fun ys hys => .pure ?_
    exact h.document.ordered_nodeSet (List.forall_mem_append.mpr ⟨hxs.2, hys.2⟩)
  | .filter base ps => fun focus hfocus => by
    have hps := steady_eval_all h.steady ps
    simp only [eval]
    refine (eval_ordered h base focus hfocus).bind fun v hv => ?_
    refine (evalNodes_of_ordered hv).bind fun xs hxs => ?_
    refine (evalPredicates_sublist hps xs).bind fun ys hys => .pure ?_
    exact ⟨hxs.1.sublist hys, fun y hy => hxs.2 y (hys.subset hy)⟩
  | .path start steps => fun focus hfocus => by
    simp only [eval]
    refine (evalStart_ordered h start focus hfocus).bind fun xs hxs => ?_
    have hsteps := (evalSteps_ordered h steps hxs).bind fun ys hys =>
      Yields.pure (N := N) (a := Value.nodes ys) (P := Value.Ordered env.document nodes) hys
    cases steps.isEmpty with
    | true => exact .after (.note xs) fun _ => hsteps
    | false => exact hsteps

theorem eval_ordered_all (h : env.Orderly nodes top) :
    (es : List Expr) → ∀ e ∈ es, ∀ focus, focus.node ∈ nodes →
      Yields (env.eval e focus) (Value.Ordered env.document nodes)
  | [] => fun _ he => absurd he List.not_mem_nil
  | e :: es => List.forall_mem_cons.mpr ⟨eval_ordered h e, eval_ordered_all h es⟩

theorem evalStart_ordered (h : env.Orderly nodes top) :
    (start : Start Expr) → ∀ focus, focus.node ∈ nodes →
      Yields (env.evalStart start focus)
        fun xs => Ascends env.document.order xs ∧ ∀ x ∈ xs, x ∈ nodes
  | .root => fun focus hfocus => by
    simp only [evalStart]
    exact .pure (Value.ordered_singleton (h.document.root_mem hfocus))
  | .context => fun focus hfocus => by
    simp only [evalStart]
    exact .pure (Value.ordered_singleton hfocus)
  | .nodes base => fun focus hfocus => by
    simp only [evalStart]
    exact (eval_ordered h base focus hfocus).bind fun _ hv => evalNodes_of_ordered hv

end

/-! ## Unions -/

/-- A union has the nodes that its operands have by themselves. -/
theorem evaluate_union (hlibrary : env.library.Steady) (a b : Expr) :
    env.evaluate (.union a b) = (do
      let xs ← (← env.evaluate a).toNodes
      let ys ← (← env.evaluate b).toNodes
      pure (.nodes (env.document.nodeSet (xs ++ ys)))) := by
  have hb (xs : List N) : Steady (do
      let ys ← Reading.ofExcept (← env.eval b env.focus).toNodes
      pure (Value.nodes (env.document.nodeSet (xs ++ ys)))) :=
    .after (steady_eval hlibrary b env.focus) fun _ => .after (.ofExcept fun _ _ => trivial)
      fun _ => .pure trivial
  have hpure (zs : List N) : Steady (pure (Value.nodes zs) : Reading N (Value N)) := .pure trivial
  have heval : env.evaluate (.union a b) = (env.eval (.union a b) env.focus).value := rfl
  have ha : env.evaluate a = (env.eval a env.focus).value := rfl
  have hb' : env.evaluate b = (env.eval b env.focus).value := rfl
  -- the values of the steps do not depend on what was noted before them
  rw [heval, ha, hb']
  simp only [eval]
  rw [Steady.value_bind fun v => .after (.ofExcept fun _ _ => trivial) hb]
  refine bind_congr fun v => ?_
  rw [Steady.value_bind hb, Reading.value_ofExcept]
  refine bind_congr fun xs => ?_
  rw [Steady.value_bind fun w => .after (.ofExcept fun _ _ => trivial) fun _ => hpure _]
  refine bind_congr fun w => ?_
  rw [Steady.value_bind fun ys => hpure _, Reading.value_ofExcept]
  rfl

variable (h : env.Orderly nodes top)

include h

theorem nodeSet_comm {xs ys : List N} (hxs : ∀ x ∈ xs, x ∈ nodes) (hys : ∀ y ∈ ys, y ∈ nodes) :
    env.document.nodeSet (xs ++ ys) = env.document.nodeSet (ys ++ xs) := by
  obtain ⟨hleft, hmem⟩ :=
    h.document.ordered_nodeSet (List.forall_mem_append.mpr ⟨hxs, hys⟩)
  obtain ⟨hright, _⟩ := h.document.ordered_nodeSet (List.forall_mem_append.mpr ⟨hys, hxs⟩)
  refine hleft.ext h.document.linearOn hright hmem fun z => ?_
  simp only [Document.mem_nodeSet, List.mem_append, or_comm]

theorem evaluate_ordered {e : Expr} {xs : List N} (he : env.evaluate e = .ok (.nodes xs)) :
    Ascends env.document.order xs ∧ ∀ x ∈ xs, x ∈ nodes :=
  (eval_ordered h e env.focus h.current).of_value he

/-- The operands of a union may change places. -/
theorem evaluate_union_comm (a b : Expr) :
    (env.evaluate (.union a b)).toOption = (env.evaluate (.union b a)).toOption := by
  rw [evaluate_union h.steady, evaluate_union h.steady]
  cases ha : env.evaluate a with
  | error e => cases env.evaluate b with
    | error e => rfl
    | ok w => cases w <;> rfl
  | ok v =>
    cases v with
    | atom x => cases env.evaluate b with
      | error e => rfl
      | ok w => cases w <;> rfl
    | nodes xs =>
      cases hb : env.evaluate b with
      | error e => rfl
      | ok w =>
        cases w with
        | atom x => rfl
        | nodes ys =>
          have hcomm := nodeSet_comm h (evaluate_ordered h ha).2 (evaluate_ordered h hb).2
          exact congrArg (fun zs => some (Value.nodes zs)) hcomm

omit h

/-- In a finite tree, the node-sets that expressions of built-in functions give are parts of the
preorder listing of the tree, and unions do not depend on the order of their operands. -/
theorem evaluate_inPreorder (hdocument : env.document.IsTree nodes top)
    (hcurrent : env.current ∈ nodes)
    (hlibrary : ∀ e ∈ env.library.entries, e ∈ (Library.builtins : Library N).entries) :
    (env.document.preorder top).Nodup ∧ (∀ x, x ∈ env.document.preorder top ↔ x ∈ nodes) ∧
      (∀ e xs, env.evaluate e = .ok (.nodes xs) → xs.Sublist (env.document.preorder top)) ∧
      (∀ a b xs ys, env.evaluate a = .ok (.nodes xs) → env.evaluate b = .ok (.nodes ys) →
        ∃ zs, env.evaluate (.union a b) = .ok (.nodes zs) ∧
          env.evaluate (.union b a) = .ok (.nodes zs)) ∧
      ∀ a b, (env.evaluate (.union a b)).toOption = (env.evaluate (.union b a)).toOption := by
  have h : env.Orderly nodes top :=
    ⟨hdocument, hcurrent, fun e he => Builtin.regular_builtins e (hlibrary e he)⟩
  refine ⟨hdocument.toIsTree.nodup_preorder, fun _ => hdocument.toIsTree.mem_preorder,
    ?_, ?_, evaluate_union_comm h⟩
  · intro e xs he
    obtain ⟨hascends, hmem⟩ := evaluate_ordered h he
    exact hdocument.sublist_preorder hascends hmem
  · intro a b xs ys ha hb
    refine ⟨env.document.nodeSet (xs ++ ys), ?_, ?_⟩
    · rw [evaluate_union h.steady, ha, hb]
      rfl
    · rw [evaluate_union h.steady, ha, hb,
        nodeSet_comm h (evaluate_ordered h ha).2 (evaluate_ordered h hb).2]
      rfl

end Environment

/-! ## A small document -/

def Environment.sprig : Environment (Fin 5) where
  document := { toHostTree := .sprig }
  current := Fin.last 4
  library := .builtins

/-- The siblings before the node, the nearest first, and all attributes. -/
def Expr.sprig : Expr :=
  .union (.path .context [⟨.precedingSibling, .any, []⟩, ⟨.ancestorOrSelf, .any, []⟩])
    (.path .root [⟨.descendant, .any, []⟩, ⟨.attributes, .any, []⟩])

theorem Environment.evaluate_inPreorder_sprig :
    Environment.sprig.document.preorder 0 = [0, 1, 2, 3, 4] ∧
      Environment.sprig.evaluate .sprig = .ok (.nodes [1, 2, 3]) ∧
      [1, 2, 3].Sublist (Environment.sprig.document.preorder 0) := by
  have hvalue : Environment.sprig.evaluate .sprig = .ok (.nodes [1, 2, 3]) := by decide +kernel
  have hdocument : Environment.sprig.document.IsTree Finset.univ 0 :=
    Document.isTree_of_hostTree HostTree.isTree_sprig
  refine ⟨by decide, hvalue, ?_⟩
  exact (evaluate_inPreorder hdocument (Finset.mem_univ _) fun _ he => he).2.2.1 _ _ hvalue

end ReactiveForm
