import ReactiveForm.Proofs.Eval.Order

/-!
# Location paths compose

A path goes on from a whole node-set at a time, sorting after each step. Node for node, the steps
are a relation between where they start and where they lead, and this relation composes: what a
path leads to is what its second part leads to from the nodes that the first part leads to.
-/

set_option autoImplicit false

namespace ReactiveForm

namespace Reading

variable {N α β : Type}

/-- The evaluation succeeds, with this value. -/
def Returns (m : Reading N α) (a : α) : Prop := m.value = .ok a

theorem returns_pure {a b : α} : (pure a : Reading N α).Returns b ↔ a = b :=
  ⟨Except.ok.inj, congrArg Except.ok⟩

/-- A sequence succeeds where its parts do. -/
theorem returns_bind {m : Reading N α} {f : α → Reading N β} (hf : ∀ a, Steady (f a)) {b : β} :
    (m >>= f).Returns b ↔ ∃ a, m.Returns a ∧ (f a).Returns b := by
  unfold Returns
  rw [Steady.value_bind hf]
  cases m.value with
  | error e =>
    constructor
    · exact fun h => nomatch h
    · exact fun ⟨_, h, _⟩ => nomatch h
  | ok a =>
    constructor
    · exact fun h => ⟨a, rfl, h⟩
    · rintro ⟨_, ⟨⟩, h⟩
      exact h

end Reading

open Reading (Steady Yields)

namespace Environment

variable {N : Type} [DecidableEq N]

/-! ## What is collected -/

section

variable {f : N → Reading N (List N)} (hf : ∀ x, Steady (f x))

include hf

theorem returns_collect_cons {x : N} {xs zs : List N} :
    (collect f (x :: xs)).Returns zs ↔
      ∃ ys, (f x).Returns ys ∧ ∃ rest, (collect f xs).Returns rest ∧ ys ++ rest = zs := by
  rw [collect, Reading.returns_bind fun _ => .after (steady_collect hf xs) fun _ => .pure trivial]
  refine exists_congr fun ys => and_congr_right fun _ => ?_
  rw [Reading.returns_bind fun _ => .pure trivial]
  exact exists_congr fun rest => and_congr_right fun _ => Reading.returns_pure

theorem exists_collect {xs : List N} (h : ∀ x ∈ xs, ∃ ys, (f x).Returns ys) :
    ∃ zs, (collect f xs).Returns zs := by
  induction xs with
  | nil => exact ⟨[], rfl⟩
  | cons x xs ih =>
    obtain ⟨ys, hys⟩ := h x List.mem_cons_self
    obtain ⟨rest, hrest⟩ := ih fun y hy => h y (List.mem_cons_of_mem x hy)
    exact ⟨ys ++ rest, (returns_collect_cons hf).mpr ⟨ys, hys, rest, hrest, rfl⟩⟩

theorem mem_collect {xs zs : List N} (h : (collect f xs).Returns zs) :
    (∀ x ∈ xs, ∃ ys, (f x).Returns ys) ∧
      ∀ z, z ∈ zs ↔ ∃ x ∈ xs, ∃ ys, (f x).Returns ys ∧ z ∈ ys := by
  induction xs generalizing zs with
  | nil =>
    obtain rfl := Reading.returns_pure.mp h
    simp
  | cons x xs ih =>
    obtain ⟨ys, hys, rest, hrest, rfl⟩ := (returns_collect_cons hf).mp h
    obtain ⟨hall, hmem⟩ := ih hrest
    refine ⟨List.forall_mem_cons.mpr ⟨⟨ys, hys⟩, hall⟩, fun z => ?_⟩
    rw [List.mem_append, hmem, List.exists_mem_cons_iff]
    refine or_congr_left ⟨fun hz => ⟨ys, hys, hz⟩, ?_⟩
    rintro ⟨ys', hys', hz⟩
    rwa [Except.ok.inj (hys.symm.trans hys')]

end

/-! ## Steps, node for node -/

variable [Ord N] (env : Environment N)

/-- The steps succeed from the node, and from all nodes they come to. -/
def Defined : List (Step Expr) → N → Prop
  | [], _ => True
  | s :: rest, x => ∃ ys, (env.evalStep s false x).Returns ys ∧ ∀ y ∈ ys, Defined rest y

/-- The steps lead from the first node to the second one. -/
def Leads : List (Step Expr) → N → N → Prop
  | [], x, z => z = x
  | s :: rest, x, z => ∃ ys, (env.evalStep s false x).Returns ys ∧ ∃ y ∈ ys, Leads rest y z

variable {env}

theorem defined_append {p q : List (Step Expr)} {x : N} :
    env.Defined (p ++ q) x ↔ env.Defined p x ∧ ∀ m, env.Leads p x m → env.Defined q m := by
  induction p generalizing x with
  | nil => simp [Defined, Leads]
  | cons s p ih =>
    simp only [List.cons_append, Defined, Leads, ih]
    constructor
    · rintro ⟨ys, hys, hall⟩
      refine ⟨⟨ys, hys, fun y hy => (hall y hy).1⟩, ?_⟩
      rintro m ⟨ys', hys', y, hy, hm⟩
      obtain rfl := Except.ok.inj (hys.symm.trans hys')
      exact (hall y hy).2 m hm
    · rintro ⟨⟨ys, hys, hall⟩, hrest⟩
      exact ⟨ys, hys, fun y hy => ⟨hall y hy, fun m hm => hrest m ⟨ys, hys, y, hy, hm⟩⟩⟩

theorem leads_append {p q : List (Step Expr)} {x z : N} :
    env.Leads (p ++ q) x z ↔ ∃ m, env.Leads p x m ∧ env.Leads q m z := by
  induction p generalizing x with
  | nil => simp [Leads]
  | cons s p ih =>
    simp only [List.cons_append, Leads, ih]
    constructor
    · rintro ⟨ys, hys, y, hy, m, hm, hz⟩
      exact ⟨m, ⟨ys, hys, y, hy, hm⟩, hz⟩
    · rintro ⟨m, ⟨ys, hys, y, hy, hm⟩, hz⟩
      exact ⟨ys, hys, y, hy, m, hm, hz⟩

variable (hlibrary : env.library.Steady)

include hlibrary

theorem steady_evalStep (s : Step Expr) (isLast : Bool) (x : N) :
    Steady (env.evalStep s isLast x) := by
  obtain ⟨axis, test, predicates⟩ := s
  simp only [evalStep]
  exact .after (steady_candidates axis test isLast x).steady fun found =>
    (evalPredicates_sublist (steady_eval_all hlibrary predicates) found).steady

omit hlibrary in
theorem returns_candidates (axis : Axis) (test : NodeTest) (isLast : Bool) (x : N) :
    (env.candidates axis test isLast x).Returns
      ((env.document.along x axis).filter (env.document.passes axis test)) := by
  unfold candidates
  cases isLast with
  | true =>
    simp only [if_true]
    split <;> rfl
  | false => rfl

/-- Only the log tells whether a step is the last one. -/
theorem returns_evalStep_iff (s : Step Expr) (isLast : Bool) {x : N} {ys : List N} :
    (env.evalStep s isLast x).Returns ys ↔ (env.evalStep s false x).Returns ys := by
  obtain ⟨axis, test, predicates⟩ := s
  have hsteady (found : List N) : Steady (env.evalPredicates predicates found) :=
    (evalPredicates_sublist (steady_eval_all hlibrary predicates) found).steady
  have hfound (isLast : Bool) (found : List N) : (env.candidates axis test isLast x).Returns found ↔
      (env.document.along x axis).filter (env.document.passes axis test) = found := by
    rw [Reading.Returns, returns_candidates axis test isLast x]
    exact ⟨Except.ok.inj, congrArg Except.ok⟩
  simp only [evalStep, Reading.returns_bind hsteady, hfound]

theorem returns_evalSteps_cons {s : Step Expr} {rest : List (Step Expr)} {xs zs : List N} :
    (env.evalSteps (s :: rest) xs).Returns zs ↔
      ∃ found, (collect (env.evalStep s rest.isEmpty) xs).Returns found ∧
        (env.evalSteps rest (env.document.nodeSet found)).Returns zs := by
  simp only [evalSteps]
  exact Reading.returns_bind fun found => steady_evalSteps (steady_eval_steps hlibrary rest) _

theorem exists_evalSteps {q : List (Step Expr)} {xs : List N} (h : ∀ x ∈ xs, env.Defined q x) :
    ∃ zs, (env.evalSteps q xs).Returns zs := by
  induction q generalizing xs with
  | nil =>
    simp only [evalSteps]
    exact ⟨xs, rfl⟩
  | cons s rest ih =>
    have hstep := steady_evalStep hlibrary s rest.isEmpty
    have heach : ∀ x ∈ xs, ∃ ys, (env.evalStep s rest.isEmpty x).Returns ys := by
      intro x hx
      obtain ⟨ys, hys, _⟩ := h x hx
      exact ⟨ys, (returns_evalStep_iff hlibrary s rest.isEmpty).mpr hys⟩
    -- the first step can be gone from every node, so collecting over all of them succeeds
    obtain ⟨found, hfound⟩ := exists_collect hstep heach
    -- what the first step found came from one of the nodes, and the rest is defined there
    have hnext : ∀ y ∈ env.document.nodeSet found, env.Defined rest y := by
      intro y hy
      rw [Document.mem_nodeSet, (mem_collect hstep hfound).2] at hy
      obtain ⟨x, hx, ys, hys, hy⟩ := hy
      rw [returns_evalStep_iff hlibrary] at hys
      obtain ⟨ys', hys', hall⟩ := h x hx
      obtain rfl := Except.ok.inj (hys.symm.trans hys')
      exact hall y hy
    obtain ⟨zs, hzs⟩ := ih hnext
    exact ⟨zs, (returns_evalSteps_cons hlibrary).mpr ⟨found, hfound, hzs⟩⟩

/-- What steps find from many nodes is what they lead to from each of them. -/
theorem mem_evalSteps {q : List (Step Expr)} {xs zs : List N} (h : (env.evalSteps q xs).Returns zs) :
    (∀ x ∈ xs, env.Defined q x) ∧ ∀ z, z ∈ zs ↔ ∃ x ∈ xs, env.Leads q x z := by
  induction q generalizing xs with
  | nil =>
    simp only [evalSteps] at h
    obtain rfl := Reading.returns_pure.mp h
    simp [Defined, Leads]
  | cons s rest ih =>
    obtain ⟨found, hfound, hrest⟩ := (returns_evalSteps_cons hlibrary).mp h
    obtain ⟨hall, hmem⟩ := mem_collect (steady_evalStep hlibrary s rest.isEmpty) hfound
    -- the induction hypothesis speaks of the collected nodes, `hmem` of where each came from
    obtain ⟨hdefined, hleads⟩ := ih hrest
    simp only [returns_evalStep_iff hlibrary] at hall hmem
    simp only [Document.mem_nodeSet, hmem] at hdefined hleads
    constructor
    · intro x hx
      obtain ⟨ys, hys⟩ := hall x hx
      exact ⟨ys, hys, fun y hy => hdefined y ⟨x, hx, ys, hys, hy⟩⟩
    · intro z
      rw [hleads]
      constructor
      · rintro ⟨y, ⟨x, hx, ys, hys, hy⟩, hz⟩
        exact ⟨x, hx, ys, hys, y, hy, hz⟩
      · rintro ⟨x, hx, ys, hys, y, hy, hz⟩
        exact ⟨y, ⟨x, hx, ys, hys, hy⟩, hz⟩

/-- What a step finds is sorted, so the results of steps are ascending. -/
theorem ascends_evalSteps (horder : LinearOn (fun _ => True) env.document.order)
    {q : List (Step Expr)} (hq : q ≠ []) {xs zs : List N} (h : (env.evalSteps q xs).Returns zs) :
    Ascends env.document.order zs := by
  induction q generalizing xs with
  | nil => exact absurd rfl hq
  | cons s rest ih =>
    obtain ⟨found, _, hrest⟩ := (returns_evalSteps_cons hlibrary).mp h
    cases rest with
    | nil =>
      simp only [evalSteps] at hrest
      obtain rfl := Reading.returns_pure.mp hrest
      exact env.document.ascends_nodeSet horder fun _ _ => trivial
    | cons t rest => exact ih (List.cons_ne_nil t rest) hrest

/-- The value of a path is what its steps find from where it starts. -/
theorem returns_path {start : Start Expr} {steps : List (Step Expr)} {focus : Focus N}
    {zs : List N} : (env.eval (.path start steps) focus).Returns (.nodes zs) ↔
      ∃ xs, (env.evalStart start focus).Returns xs ∧ (env.evalSteps steps xs).Returns zs := by
  have hsteps (xs : List N) : Steady (env.evalSteps steps xs) :=
    steady_evalSteps (steady_eval_steps hlibrary steps) xs
  have hresult (xs : List N) :
      (env.evalSteps steps xs >>= fun ys => pure (Value.nodes ys)).Returns (.nodes zs) ↔
        (env.evalSteps steps xs).Returns zs := by
    rw [Reading.returns_bind fun _ => .pure trivial]
    constructor
    · rintro ⟨ys, hys, hzs⟩
      obtain rfl := Value.nodes.inj (Reading.returns_pure.mp hzs)
      exact hys
    · exact fun hzs => ⟨zs, hzs, rfl⟩
  have hrest (xs : List N) : Steady (env.evalSteps steps xs >>= fun ys => pure (Value.nodes ys)) :=
    .after (hsteps xs) fun _ => .pure trivial
  simp only [eval]
  -- a path without steps notes its nodes first, which changes no outcome
  cases steps.isEmpty with
  | false =>
    simp only [Bool.false_eq_true, if_false]
    refine (Reading.returns_bind hrest).trans ?_
    exact exists_congr fun xs => and_congr_right fun _ => hresult xs
  | true =>
    simp only [if_true]
    refine (Reading.returns_bind fun xs => .after (.note xs) fun _ => hrest xs).trans ?_
    refine exists_congr fun xs => and_congr_right fun _ => ?_
    refine (Reading.returns_bind (m := Reading.note xs) fun _ => hrest xs).trans ?_
    constructor
    · rintro ⟨_, _, hzs⟩
      exact (hresult xs).mp hzs
    · exact fun hzs => ⟨(), rfl, (hresult xs).mpr hzs⟩

/-! ## Composition -/

/-- Going on with more steps succeeds if it does from each node that has been reached. -/
theorem exists_evalSteps_append (horder : LinearOn (fun _ => True) env.document.order)
    {p q : List (Step Expr)} (hq : q ≠ []) {xs ps : List N} {found : N → List N}
    (hp : (env.evalSteps p xs).Returns ps)
    (hfound : ∀ m ∈ ps, (env.evalSteps q [m]).Returns (found m)) :
    ∃ zs, (env.evalSteps (p ++ q) xs).Returns zs ∧ Ascends env.document.order zs ∧
      ∀ z, z ∈ zs ↔ ∃ m ∈ ps, z ∈ found m := by
  obtain ⟨hdefined, hleads⟩ := mem_evalSteps hlibrary hp
  have hafter (m : N) (hm : m ∈ ps) :
      env.Defined q m ∧ ∀ z, z ∈ found m ↔ env.Leads q m z := by
    obtain ⟨hdefined, hmem⟩ := mem_evalSteps hlibrary (hfound m hm)
    simp only [List.mem_singleton, forall_eq, exists_eq_left] at hdefined hmem
    exact ⟨hdefined, hmem⟩
  -- the appended steps can be gone: the first ones lead to `ps`, and `hfound` covers the rest
  have hall : ∀ x ∈ xs, env.Defined (p ++ q) x := fun x hx =>
    defined_append.mpr ⟨hdefined x hx, fun m hm => (hafter m ((hleads m).mpr ⟨x, hx, hm⟩)).1⟩
  obtain ⟨zs, hzs⟩ := exists_evalSteps hlibrary hall
  have hne : p ++ q ≠ [] := fun h => hq (List.append_eq_nil_iff.mp h).2
  refine ⟨zs, hzs, ascends_evalSteps hlibrary horder hne hzs, fun z => ?_⟩
  rw [(mem_evalSteps hlibrary hzs).2]
  constructor
  · rintro ⟨x, hx, hz⟩
    obtain ⟨m, hm, hz⟩ := leads_append.mp hz
    have hps := (hleads m).mpr ⟨x, hx, hm⟩
    exact ⟨m, hps, ((hafter m hps).2 z).mpr hz⟩
  · rintro ⟨m, hps, hz⟩
    obtain ⟨x, hx, hm⟩ := (hleads m).mp hps
    exact ⟨x, hx, leads_append.mpr ⟨m, hm, ((hafter m hps).2 z).mp hz⟩⟩

/-- A path that goes on with further steps, and the path that starts at a node-set, give the union
of what these steps give from each node, wherever they give something from all. Functions may only
write to the log. -/
theorem eval_path_append (horder : LinearOn (fun _ => True) env.document.order)
    {q : List (Step Expr)} (hq : q ≠ []) (focus : Focus N) (position size : Nat) {ps : List N}
    {found : N → List N}
    (hfound : ∀ m ∈ ps,
      (env.eval (.path .context q) ⟨m, position, size⟩).Returns (.nodes (found m))) :
    (∀ start p, (env.eval (.path start p) focus).Returns (.nodes ps) →
      ∃ zs, (env.eval (.path start (p ++ q)) focus).Returns (.nodes zs) ∧
        Ascends env.document.order zs ∧ zs.Nodup ∧ ∀ z, z ∈ zs ↔ ∃ m ∈ ps, z ∈ found m) ∧
    ∀ e, (env.eval e focus).Returns (.nodes ps) →
      ∃ zs, (env.eval (.path (.nodes e) q) focus).Returns (.nodes zs) ∧
        Ascends env.document.order zs ∧ zs.Nodup ∧ ∀ z, z ∈ zs ↔ ∃ m ∈ ps, z ∈ found m := by
  have hsteps (m : N) (hm : m ∈ ps) : (env.evalSteps q [m]).Returns (found m) := by
    obtain ⟨xs, hxs, hq⟩ := (returns_path hlibrary).mp (hfound m hm)
    simp only [evalStart] at hxs
    obtain rfl := Reading.returns_pure.mp hxs
    exact hq
  -- both parts start somewhere and then go along the steps
  have happend {start : Start Expr} {p : List (Step Expr)} {xs : List N}
      (hxs : (env.evalStart start focus).Returns xs) (hp : (env.evalSteps p xs).Returns ps) :
      ∃ zs, (env.eval (.path start (p ++ q)) focus).Returns (.nodes zs) ∧
        Ascends env.document.order zs ∧ zs.Nodup ∧ ∀ z, z ∈ zs ↔ ∃ m ∈ ps, z ∈ found m := by
    obtain ⟨zs, hzs, hascends, hmem⟩ := exists_evalSteps_append hlibrary horder hq hp hsteps
    exact ⟨zs, (returns_path hlibrary).mpr ⟨xs, hxs, hzs⟩, hascends,
      hascends.nodup horder fun _ _ => trivial, hmem⟩
  constructor
  · intro start p hp
    obtain ⟨xs, hxs, hp⟩ := (returns_path hlibrary).mp hp
    exact happend hxs hp
  · intro e he
    have hstart : (env.evalStart (.nodes e) focus).Returns ps := by
      simp only [evalStart]
      rw [Reading.returns_bind fun _ => .ofExcept fun _ _ => trivial]
      exact ⟨.nodes ps, he, rfl⟩
    have hstay : (env.evalSteps [] ps).Returns ps := by
      simp only [evalSteps]
      rfl
    exact happend hstart hstay

omit hlibrary

theorem eval_path_append_sprig :
    ∃ zs, (Environment.sprig.eval
        (.path .root ([⟨.descendant, .any, []⟩] ++ [⟨.ancestorOrSelf, .any, []⟩]))
        Environment.sprig.focus).Returns (.nodes zs) ∧
      Ascends Environment.sprig.document.order zs ∧ zs.Nodup ∧
        ∀ z, z ∈ zs ↔ ∃ m ∈ [1, 3, 4], z ∈ if m = 1 then [1] else [1, m] := by
  have hlinear := (Document.isTree_of_hostTree HostTree.isTree_sprig).linearOn
  have horder : LinearOn (fun _ => True) Environment.sprig.document.order :=
    ⟨fun _ _ => hlinear.eq_iff (Finset.mem_univ _) (Finset.mem_univ _),
      fun _ _ => hlinear.swap (Finset.mem_univ _) (Finset.mem_univ _),
      fun _ _ _ => hlinear.trans (Finset.mem_univ _) (Finset.mem_univ _) (Finset.mem_univ _)⟩
  have hlibrary : Environment.sprig.library.Steady :=
    fun e he => (Builtin.regular_builtins e he).steady
  have hfound : ∀ m ∈ [(1 : Fin 5), 3, 4], (Environment.sprig.eval
      (.path .context [⟨.ancestorOrSelf, .any, []⟩]) ⟨m, 1, 1⟩).Returns
        (.nodes (if m = 1 then [1] else [1, m])) := by
    unfold Reading.Returns
    decide +kernel
  have hfirst : (Environment.sprig.eval (.path .root [⟨.descendant, .any, []⟩])
      Environment.sprig.focus).Returns (.nodes [1, 3, 4]) := by
    unfold Reading.Returns
    decide +kernel
  exact (eval_path_append hlibrary horder (List.cons_ne_nil _ _) Environment.sprig.focus 1 1
    hfound).1 _ _ hfirst

end Environment

end ReactiveForm
