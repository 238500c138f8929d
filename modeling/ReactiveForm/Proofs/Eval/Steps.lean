import ReactiveForm.Eval
import ReactiveForm.Proofs.Eval.Axes
import ReactiveForm.Proofs.Eval.Builtins

/-!
# Location steps in two trees with the same frame

The texts below leaves come and go with the contents of the leaves. A last step on the child axis
reads the leaves that it looks below, so that it finds the same texts wherever the trees agree on
what has been read. The step that a double slash stands for reads nothing, but the step after it
goes to children, which texts do not have.
-/

set_option autoImplicit false

namespace ReactiveForm

namespace Reading

variable {N α β : Type} {A : N → Prop} {H : Prop} {m m' : Reading N α} {P : α → Prop}

/-- The log only ever grows. -/
def Grows (m : Reading N α) : Prop :=
  ∀ r : Reads N, ∃ out r', m.run (some r) = (out, some r') ∧ r.nodes ⊆ r'.nodes

theorem Echoes.grows (h : Echoes A H m m' P) : m.Grows := by
  intro r
  obtain ⟨out, r', hrun, hgrow, _⟩ := h r
  exact ⟨out, r', hrun, hgrow⟩

/-- What is only to be shown where `H` holds may be shown under `H`. -/
theorem Echoes.under (hm : m.Grows) (h : H → Echoes A H m m' P) : Echoes A H m m' P := by
  by_cases hH : H
  · exact h hH
  · intro r
    obtain ⟨out, r', hrun, hgrow⟩ := hm r
    exact ⟨out, r', hrun, hgrow, fun h => absurd h hH⟩

end Reading

/-! ## Lists that agree as far as they are read -/

/-- The two lists go on alike after every node that can be relied on. -/
inductive Lockstep {N : Type} (A : N → Prop) : List N → List N → Prop where
  | nil : Lockstep A [] []
  | cons (x : N) {xs ys : List N} : (A x → Lockstep A xs ys) → Lockstep A (x :: xs) (x :: ys)

/-- What is in the first list but not in the second one comes after a node that cannot be relied
on. -/
def Reaches {N : Type} (A : N → Prop) (order : N → N → Ordering) (xs ys : List N) : Prop :=
  ∀ x ∈ xs, x ∈ ys ∨ ∃ y ∈ xs, order y x = .lt ∧ ¬A y

section Lockstep

variable {N : Type} {A S : N → Prop} {order : N → N → Ordering} (h : LinearOn S order)

include h

theorem Reaches.head_mem {x : N} {xs ys : List N} (hr : Reaches A order (x :: xs) ys)
    (hx : Ascends order (x :: xs)) (hS : ∀ y ∈ x :: xs, S y) : x ∈ ys := by
  have hSx : S x := hS x List.mem_cons_self
  rcases hr x List.mem_cons_self with hm | ⟨y, hy, hlt, _⟩
  · exact hm
  · rcases List.mem_cons.mp hy with rfl | hy'
    · exact absurd hlt (h.irrefl hSx)
    · exact absurd hlt (h.not_lt_of_lt hSx (hS y hy) (List.rel_of_pairwise_cons hx hy'))

theorem Reaches.tail {x : N} {xs ys : List N} (hr : Reaches A order (x :: xs) (x :: ys))
    (hx : Ascends order (x :: xs)) (hS : ∀ y ∈ x :: xs, S y) (hA : A x) :
    Reaches A order xs ys := by
  intro z hz
  have hne : z ≠ x := by
    rintro rfl
    exact hx.not_mem h (hS z List.mem_cons_self) hz
  rcases hr z (List.mem_cons_of_mem x hz) with hm | ⟨y, hy, hlt, hnot⟩
  · exact .inl ((List.mem_cons.mp hm).resolve_left hne)
  · have hyx : y ≠ x := by
      rintro rfl
      exact hnot hA
    exact .inr ⟨y, (List.mem_cons.mp hy).resolve_left hyx, hlt, hnot⟩

theorem lockstep_of_reaches {xs ys : List N} (hx : Ascends order xs) (hy : Ascends order ys)
    (hSx : ∀ x ∈ xs, S x) (hSy : ∀ y ∈ ys, S y) (hxy : Reaches A order xs ys)
    (hyx : Reaches A order ys xs) : Lockstep A xs ys := by
  induction xs generalizing ys with
  | nil =>
    cases ys with
    | nil => exact .nil
    | cons y ys => exact absurd (hyx.head_mem h hy hSy) List.not_mem_nil
  | cons x xs ih =>
    cases ys with
    | nil => exact absurd (hxy.head_mem h hx hSx) List.not_mem_nil
    | cons y ys =>
      have hxm := hxy.head_mem h hx hSx
      have hym := hyx.head_mem h hy hSy
      obtain rfl := hx.head_eq h hy (hSx x List.mem_cons_self) (hSy y List.mem_cons_self) hxm hym
      refine .cons x fun hA => ih hx.tail hy.tail ?_ ?_ ?_ ?_
      · exact fun z hz => hSx z (List.mem_cons_of_mem x hz)
      · exact fun z hz => hSy z (List.mem_cons_of_mem x hz)
      · exact hxy.tail h hx hSx hA
      · exact hyx.tail h hy hSy hA

end Lockstep

/-! ## One node after the other -/

namespace Environment

open Reading

section Lists

variable {N : Type} {A S Q : N → Prop}

theorem append_covered {ys zs : List N} (hys : ∀ y ∈ ys, Q y) (hzs : ∀ z ∈ zs, Q z) :
    ∀ y ∈ ys ++ zs, Q y := by
  intro y hy
  rcases List.mem_append.mp hy with hy | hy
  · exact hys y hy
  · exact hzs y hy

theorem collect_echoes {f f' : N → Reading N (List N)}
    (hf : ∀ x, Echoes A (S x) (f x) (f' x) fun ys => ∀ y ∈ ys, Q y) (xs : List N) :
    Echoes A (∀ x ∈ xs, S x) (collect f xs) (collect f' xs) fun ys => ∀ y ∈ ys, Q y := by
  induction xs with
  | nil => exact .pure fun _ => ⟨rfl, fun _ hy => absurd hy List.not_mem_nil⟩
  | cons x xs ih =>
    refine ((hf x).given fun hxs => hxs x List.mem_cons_self).bind fun ys => ?_
    refine (ih.given ?_).bind fun zs => .pure ?_
    · rintro ⟨hxs, _⟩ y hy
      exact hxs y (List.mem_cons_of_mem x hy)
    · rintro ⟨⟨_, hys⟩, hzs⟩
      exact ⟨rfl, append_covered hys hzs⟩

/-- Where each node is read before anything else is found, lists in lockstep are as good as equal
ones. -/
theorem collect_lockstep {f f' : N → Reading N (List N)}
    (hf : ∀ x, Echoes A (S x) (f x) (f' x) fun ys => A x ∧ ∀ y ∈ ys, Q y) {xs xs' : List N}
    (hl : Lockstep A xs xs') :
    Echoes A (∀ x ∈ xs, S x) (collect f xs) (collect f' xs') fun ys => ∀ y ∈ ys, Q y := by
  have hgrows (xs : List N) : (collect f xs).Grows :=
    (collect_echoes (fun x => (hf x).imp id fun _ _ hys => hys.2) xs).grows
  induction hl with
  | nil => exact .pure fun _ => ⟨rfl, fun _ hy => absurd hy List.not_mem_nil⟩
  | @cons x xs ys _ ih =>
    refine ((hf x).given fun hxs => hxs x List.mem_cons_self).bind fun found => ?_
    have hrest : Echoes A ((∀ y ∈ x :: xs, S y) ∧ A x ∧ ∀ y ∈ found, Q y) (collect f xs)
        (collect f' ys) fun zs => ∀ z ∈ zs, Q z := by
      refine .under (hgrows xs) ?_
      rintro ⟨_, hA, _⟩
      exact (ih hA).given fun hH y hy => hH.1 y (List.mem_cons_of_mem x hy)
    refine hrest.bind fun zs => .pure ?_
    rintro ⟨⟨_, _, hys⟩, hzs⟩
    exact ⟨rfl, append_covered hys hzs⟩

theorem collect_filter {f : N → Reading N (List N)} (keep : N → Bool)
    (hf : ∀ x, keep x = false → f x = pure []) (xs : List N) :
    collect f xs = collect f (xs.filter keep) := by
  induction xs with
  | nil => rfl
  | cons x xs ih =>
    cases hx : keep x with
    | true => simp only [List.filter_cons, hx, if_true, collect, ih]
    | false => simp [hx, collect, hf x hx, ih]

theorem collect_pure (g : N → List N) (xs : List N) :
    collect (fun x => pure (g x)) xs = pure (xs.flatMap g) := by
  induction xs with
  | nil => rfl
  | cons x xs ih => simp [collect, ih]

theorem select_echoes {holds holds' : Focus N → Reading N Bool}
    (hh : ∀ focus, Echoes A (S focus.node) (holds focus) (holds' focus) fun _ => True)
    (size position : Nat) (xs : List N) :
    Echoes A (∀ x ∈ xs, S x) (select holds size position xs) (select holds' size position xs)
      fun ys => ∀ y ∈ ys, y ∈ xs := by
  induction xs generalizing position with
  | nil => exact .pure fun _ => ⟨rfl, fun _ hy => hy⟩
  | cons x xs ih =>
    refine ((hh ⟨x, position, size⟩).given fun hxs => hxs x List.mem_cons_self).bind fun keep => ?_
    refine ((ih (position + 1)).given ?_).bind fun ys => .pure ?_
    · rintro ⟨hxs, _⟩ y hy
      exact hxs y (List.mem_cons_of_mem x hy)
    · rintro ⟨_, hys⟩
      refine ⟨rfl, ?_⟩
      intro y hy
      split at hy
      · rcases List.mem_cons.mp hy with rfl | hy
        · exact List.mem_cons_self
        · exact List.mem_cons_of_mem x (hys y hy)
      · exact List.mem_cons_of_mem x (hys y hy)

end Lists

/-! ## Steps -/

/-- The same evaluation in two trees. The clock may have moved on. -/
structure Paired (t t' : Tree) (env env' : Environment ViewNode) : Prop where
  document : env.document = t.document
  document' : env'.document = t'.document
  library : env.library = .builtins
  library' : env'.library = .builtins
  current : env'.current = env.current
  position : env'.position = env.position
  size : env'.size = env.size
  bindings : env'.bindings = env.bindings
  shows_current : t.Shows env.current

end Environment

namespace NodeTest

/-- Whether a text passes the test. -/
def admitsText : NodeTest → Bool
  | node | text => true
  | _ => false

end NodeTest

/-- The step may find texts. -/
def Step.findsText {ε : Type} (s : Step ε) : Bool :=
  s.axis.reachesText && s.test.admitsText

namespace Environment

open Reading

variable {t t' : Tree} {env env' : Environment ViewNode}

/-- In both trees the expression has the same value, where the trees agree on what it has read. -/
def Follows (t t' : Tree) (env env' : Environment ViewNode) (e : Expr) : Prop :=
  ∀ focus, Echoes (t.AgreeBelow t') (t.Shows focus.node) (env.eval e focus) (env'.eval e focus)
    (Value.Covered t t')

theorem evalPredicates_echoes {ps : List Expr} (hps : ∀ p ∈ ps, Follows t t' env env' p)
    (xs : List ViewNode) :
    Echoes (t.AgreeBelow t') (∀ x ∈ xs, t.Shows x) (env.evalPredicates ps xs)
      (env'.evalPredicates ps xs) fun ys => ∀ y ∈ ys, y ∈ xs := by
  induction ps generalizing xs with
  | nil =>
    simp only [evalPredicates]
    exact .pure fun _ => ⟨rfl, fun _ hy => hy⟩
  | cons p ps ih =>
    simp only [evalPredicates]
    refine (select_echoes ?_ xs.length 1 xs).bind fun ys => ?_
    · intro focus
      refine (hps p List.mem_cons_self focus).bind fun v => .pure fun _ => ⟨rfl, trivial⟩
    · refine (ih (fun q hq => hps q (List.mem_cons_of_mem p hq)) ys).imp ?_ ?_
      · rintro ⟨hxs, hys⟩ y hy
        exact hxs y (hys y hy)
      · rintro ⟨_, hys⟩ zs hzs z hz
        exact hys z (hzs z hz)

theorem passes_congr {N : Type} {d d' : HostTree N} (hkind : d'.kind = d.kind)
    (hname : d'.name = d.name) : d'.passes = d.passes := by
  obtain ⟨_, kind, name, _, _⟩ := d
  obtain ⟨_, kind', name', _, _⟩ := d'
  obtain rfl : kind' = kind := hkind
  obtain rfl : name' = name := hname
  rfl

theorem passes_outside {axis : Axis} {test : NodeTest} {x : ViewNode}
    (htest : test.admitsText = false) (hx : t.document.passes axis test x) : x.isOutside := by
  cases x with
  | text id =>
    cases test <;> cases axis <;>
      simp [NodeTest.admitsText, HostTree.passes, HostTree.principalKind, Tree.viewKind] at htest hx
  | _ => rfl

/-- The nodes that a step finds from a node, before its predicates. -/
def found (env : Environment ViewNode) (axis : Axis) (test : NodeTest) (x : ViewNode) :
    List ViewNode :=
  (env.document.along x axis).filter (env.document.passes axis test)

theorem candidates_inner (env : Environment ViewNode) (axis : Axis) (test : NodeTest)
    (x : ViewNode) : env.candidates axis test false x = pure (env.found axis test x) :=
  rfl

theorem candidates_last {axis : Axis} {test : NodeTest}
    (hplain : (axis.reachesText && test.admitsText) = false) (env : Environment ViewNode)
    (x : ViewNode) :
    env.candidates axis test true x = (do note (env.found axis test x)
                                          pure (env.found axis test x)) := by
  simp only [candidates, found, if_true]
  rw [if_neg]
  intro hcond
  simp only [Bool.and_eq_true, Bool.or_eq_true, decide_eq_true_eq] at hcond
  obtain ⟨rfl, rfl | rfl⟩ := hcond <;> exact nomatch hplain

/-- A last step from a leaf to its text reads the leaf as well. -/
theorem candidates_child {test : NodeTest} (htest : test.admitsText)
    (env : Environment ViewNode) (x : ViewNode) :
    env.candidates .child test true x = (do note [x]
                                            note (env.found .child test x)
                                            pure (env.found .child test x)) := by
  cases test with
  | node | text => rfl
  | any | qualifier name | name name | comment => nomatch htest

section

variable (hw : t.WellFormed) (h : t.SameFrame t') (hp : env.Paired t t' env')

include h hp

theorem passes_eq : env'.document.passes = env.document.passes := by
  rw [hp.document, hp.document']
  exact passes_congr rfl h.viewName_eq

/-- A step that looks for no texts finds the same nodes in both trees. -/
theorem found_eq {axis : Axis} {test : NodeTest}
    (hplain : (axis.reachesText && test.admitsText) = false) (x : ViewNode) :
    env'.found axis test x = env.found axis test x := by
  rw [found, found, passes_eq h hp, hp.document, hp.document']
  cases haxis : axis.reachesText with
  | false => rw [h.along_eq x haxis]
  | true =>
    have htest : test.admitsText = false := by simpa [haxis] using hplain
    have houtside (xs : List ViewNode) : xs.filter (t.document.passes axis test)
        = (xs.filter ViewNode.isOutside).filter (t.document.passes axis test) := by
      rw [List.filter_filter]
      apply List.filter_congr
      intro y _
      cases hy : t.document.passes axis test y with
      | true => simp [passes_outside htest hy]
      | false => rfl
    rw [houtside, h.along_outside, ← houtside]

/-- Where the trees agree on a leaf, they show the same text below it. -/
theorem found_child_eq (test : NodeTest) {x : ViewNode} (hx : t.AgreeBelow t' x) :
    env'.found .child test x = env.found .child test x := by
  have hchildren : env'.document.along x .child = env.document.along x .child := by
    rw [hp.document, hp.document']
    exact h.viewChildren_eq hx
  rw [found, found, passes_eq h hp, hchildren]

include hw

omit h in
theorem shows_found {axis : Axis} {test : NodeTest} {x y : ViewNode} (hx : t.Shows x)
    (hy : y ∈ env.found axis test x) : t.Shows y := by
  rw [found, hp.document] at hy
  exact hw.closedOn_document.along hx (List.mem_filter.mp hy).1

/-- A step without its predicates. What the last step finds is read, and the leaf that a text is
looked for below is read as well. -/
theorem candidates_echoes {axis : Axis} {test : NodeTest} {isLast : Bool}
    (hguard : axis.reachesText && test.admitsText → axis = .child ∧ isLast) (x : ViewNode) :
    Echoes (t.AgreeBelow t') (t.Shows x) (env.candidates axis test isLast x)
      (env'.candidates axis test isLast x) fun ys =>
        (∀ y ∈ ys, t.Shows y ∧ (isLast → t.AgreeBelow t' y)) ∧
          (isLast → axis.reachesText && test.admitsText → t.AgreeBelow t' x) := by
  cases hplain : axis.reachesText && test.admitsText with
  | false =>
    have hfound := found_eq h hp hplain x
    cases isLast with
    | false =>
      rw [candidates_inner, candidates_inner]
      refine .pure fun hx => ⟨hfound, ?_, fun hl => nomatch hl⟩
      intro y hy
      exact ⟨shows_found hw hp hx hy, fun hl => nomatch hl⟩
    | true =>
      rw [candidates_last hplain, candidates_last hplain]
      refine (Echoes.note fun _ => hfound).bind fun _ => .pure ?_
      rintro ⟨hx, hread⟩
      refine ⟨hfound, ?_, fun _ hcond => nomatch hcond⟩
      intro y hy
      exact ⟨shows_found hw hp hx hy, fun _ => hread y hy⟩
  | true =>
    obtain ⟨rfl, rfl⟩ := hguard hplain
    have htest : test.admitsText := by simpa [Axis.reachesText] using hplain
    rw [candidates_child htest, candidates_child htest]
    refine (Echoes.note fun _ => rfl).bind fun _ => ?_
    -- with the leaf read, the texts below it are the same
    have hsame (hH : t.Shows x ∧ ∀ y ∈ [x], t.AgreeBelow t' y) :
        env'.found .child test x = env.found .child test x :=
      found_child_eq h hp test (hH.2 x (List.mem_singleton_self x))
    refine (Echoes.note hsame).bind fun _ => .pure ?_
    rintro ⟨hH, hread⟩
    refine ⟨hsame hH, ?_, fun _ _ => hH.2 x (List.mem_singleton_self x)⟩
    intro y hy
    exact ⟨shows_found hw hp hH.1 hy, fun _ => hread y hy⟩

theorem evalStep_echoes {s : Step Expr} {isLast : Bool}
    (hguard : s.findsText → s.axis = .child ∧ isLast)
    (hps : ∀ p ∈ s.predicates, Follows t t' env env' p) (x : ViewNode) :
    Echoes (t.AgreeBelow t') (t.Shows x) (env.evalStep s isLast x) (env'.evalStep s isLast x)
      fun ys => (∀ y ∈ ys, t.Shows y ∧ (isLast → t.AgreeBelow t' y)) ∧
        (isLast → s.findsText → t.AgreeBelow t' x) := by
  obtain ⟨axis, test, predicates⟩ := s
  simp only [evalStep]
  refine (candidates_echoes hw h hp hguard x).bind fun ys => ?_
  refine (evalPredicates_echoes hps ys).imp ?_ ?_
  · rintro ⟨_, hys, _⟩ y hy
    exact (hys y hy).1
  · rintro ⟨_, hys, hx⟩ zs hzs
    exact ⟨fun z hz => hys z (hzs z hz), hx⟩

end

/-! ## Paths -/

/-- The nodes at and below several nodes, each node before those below it. -/
def below (d : Document ViewNode) (xs : List ViewNode) : List ViewNode :=
  xs.flatMap fun x => d.along x .descendantOrSelf

theorem evalSteps_anyDepth (env : Environment ViewNode) (s : Step Expr) (rest : List (Step Expr))
    (xs : List ViewNode) :
    env.evalSteps (.anyDepth :: s :: rest) xs
      = env.evalSteps (s :: rest) (env.document.nodeSet (below env.document xs)) := by
  have hstep : env.evalStep .anyDepth false
      = fun x => pure (env.document.along x .descendantOrSelf) := by
    funext x
    have hall : env.found .descendantOrSelf .node x = env.document.along x .descendantOrSelf := by
      rw [found, List.filter_eq_self]
      intro _ _
      rfl
    simp only [Step.anyDepth, evalStep, candidates_inner, hall, evalPredicates, pure_bind]
  rw [evalSteps, List.isEmpty_cons, hstep, collect_pure, pure_bind]
  rfl

theorem note_nil {N : Type} [DecidableEq N] :
    (Reading.note [] : Reading N Unit) = pure () := by
  have hsame : (Option.map (·.recordAll []) : Log N → Log N) = id := by
    funext r
    cases r <;> rfl
  rw [Reading.note, hsame]
  rfl

theorem evalPredicates_nil (env : Environment ViewNode) (ps : List Expr) :
    env.evalPredicates ps [] = pure [] := by
  induction ps with
  | nil => rw [evalPredicates]
  | cons p ps ih => rw [evalPredicates, select, pure_bind, ih]

/-- Nothing is found on the child axis from a text. -/
theorem evalStep_text {s : Step Expr} (haxis : s.axis = .child)
    (htest : s.test.admitsText = false) (henv : env.document = t.document) (isLast : Bool)
    (id : NodeId) : env.evalStep s isLast (.text id) = pure [] := by
  obtain ⟨axis, test, predicates⟩ := s
  obtain rfl : axis = .child := haxis
  have hfound : env.found .child test (.text id) = [] := by
    rw [found, henv]
    rfl
  have hnone : env.candidates .child test isLast (.text id) = pure [] := by
    cases isLast with
    | false => rw [candidates_inner, hfound]
    | true =>
      have hplain : (Axis.child.reachesText && test.admitsText) = false := by
        simpa [Axis.reachesText] using htest
      rw [candidates_last hplain, hfound, note_nil, pure_bind]
  rw [evalStep, hnone, pure_bind, evalPredicates_nil]

theorem mem_below {t : Tree} {xs : List ViewNode} {y : ViewNode} :
    y ∈ below t.document xs ↔ ∃ x ∈ xs, y ∈ t.document.subtreeUpTo (t.arena.size + 2) x :=
  List.mem_flatMap

theorem mem_below_outside (h : t.SameFrame t') {xs : List ViewNode} {y : ViewNode}
    (hy : y.isOutside) : y ∈ below t'.document xs ↔ y ∈ below t.document xs := by
  have hmem (x : ViewNode) : y ∈ t'.document.subtreeUpTo (t.arena.size + 2) x
      ↔ y ∈ t.document.subtreeUpTo (t.arena.size + 2) x := by
    have hfilter := congrArg (y ∈ ·) (h.subtreeUpTo_outside (t.arena.size + 2) x)
    simpa [List.mem_filter, hy] using hfilter
  simp only [mem_below, h.size, hmem]

/-- A text that one tree shows and the other does not comes after its leaf, on which the trees do
not agree. -/
theorem reaches_below (hw : t.WellFormed) (h : t.SameFrame t') {xs : List ViewNode}
    (hxs : ∀ x ∈ xs, t.Shows x) :
    Reaches (t.AgreeBelow t') t.document.order (t.document.nodeSet (below t.document xs))
      (t.document.nodeSet (below t'.document xs)) := by
  intro y hy
  rw [Document.mem_nodeSet] at hy ⊢
  cases y with
  | document | element id => exact .inl ((mem_below_outside h rfl).mpr hy)
  | text id =>
    obtain ⟨x, hx, hsub⟩ := mem_below.mp hy
    rcases h.mem_subtreeUpTo_text hsub with rfl | ⟨hleaf, hagree⟩
    · exact .inl (mem_below.mpr ⟨.text id, hx, List.mem_cons_self⟩)
    · by_cases ha : t.AgreeBelow t' (.element id)
      · refine .inl (mem_below.mpr ⟨x, hx, ?_⟩)
        rw [h.size]
        exact hagree ha
      · refine .inr ⟨.element id, ?_, ?_, ha⟩
        · rw [Document.mem_nodeSet]
          exact mem_below.mpr ⟨x, hx, hleaf⟩
        · exact hw.rootedOn_document.lt_of_parent (hw.closedOn_document.subtreeUpTo (hxs x hx) hsub) rfl

section

variable (hw : t.WellFormed) (h : t.SameFrame t')

include hw

theorem shows_below {xs : List ViewNode} (hxs : ∀ x ∈ xs, t.Shows x) :
    ∀ y ∈ t.document.nodeSet (below t.document xs), t.Shows y := by
  intro y hy
  obtain ⟨x, hx, hy⟩ := mem_below.mp ((Document.mem_nodeSet _ y _).mp hy)
  exact hw.closedOn_document.subtreeUpTo (hxs x hx) hy

include h

theorem shows_below' {xs : List ViewNode} (hxs : ∀ x ∈ xs, t.Shows x) :
    ∀ y ∈ t'.document.nodeSet (below t'.document xs), t.Shows y := by
  intro y hy
  have hy' := shows_below (h.wellFormed hw) (fun x hx => h.shows_iff.mpr (hxs x hx)) y hy
  exact h.shows_iff.mp hy'

theorem lockstep_below {xs : List ViewNode} (hxs : ∀ x ∈ xs, t.Shows x) :
    Lockstep (t.AgreeBelow t') (t.document.nodeSet (below t.document xs))
      (t'.document.nodeSet (below t'.document xs)) := by
  have hw' := h.wellFormed hw
  have hxs' : ∀ x ∈ xs, t'.Shows x := fun x hx => h.shows_iff.mpr (hxs x hx)
  have hascends' : Ascends t.document.order (t'.document.nodeSet (below t'.document xs)) := by
    rw [← h.order_eq]
    apply Document.ascends_nodeSet _ hw'.linearOn_order
    intro y hy
    exact shows_below hw' hxs' y ((Document.mem_nodeSet _ y _).mpr hy)
  have hascends : Ascends t.document.order (t.document.nodeSet (below t.document xs)) := by
    apply Document.ascends_nodeSet _ hw.linearOn_order
    intro y hy
    exact shows_below hw hxs y ((Document.mem_nodeSet _ y _).mpr hy)
  refine lockstep_of_reaches hw.linearOn_order hascends hascends' (shows_below hw hxs)
    (shows_below' hw h hxs) ?_ ?_
  · rw [h.nodeSet_eq]
    exact reaches_below hw h hxs
  · -- the other way round the two trees change places
    intro y hy
    have hback := reaches_below hw' h.symm hxs' y hy
    rw [h.symm.nodeSet_eq] at *
    rcases hback with hm | ⟨z, hz, hlt, hnot⟩
    · exact .inl hm
    · rw [h.order_eq] at hlt
      exact .inr ⟨z, hz, hlt, fun ha => hnot (h.agreeBelow_symm ha)⟩

/-- Texts aside, a double slash leads to the same nodes. -/
theorem below_outside {xs : List ViewNode} (hxs : ∀ x ∈ xs, t.Shows x) :
    (t'.document.nodeSet (below t'.document xs)).filter ViewNode.isOutside
      = (t.document.nodeSet (below t.document xs)).filter ViewNode.isOutside := by
  rw [h.nodeSet_eq]
  apply Document.nodeSet_filter_congr _ hw.linearOn_order
  · intro y hy
    exact shows_below' hw h hxs y ((Document.mem_nodeSet _ y _).mpr hy)
  · intro y hy
    exact shows_below hw hxs y ((Document.mem_nodeSet _ y _).mpr hy)
  · intro y hy
    exact mem_below_outside h hy

end

end Environment

end ReactiveForm
