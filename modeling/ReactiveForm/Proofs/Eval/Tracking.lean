import ReactiveForm.Proofs.Eval.Steps
import ReactiveForm.Proofs.Tree.Entry

/-!
# What an evaluation depends on

The reads of an evaluation are all that it depends on in the contents of the leaves: in another
tree with the same frame it gives the same result and the same reads, if the two trees agree on the
leaves at and below the nodes read. This holds for expressions that look for texts only where the
leaves are read as well, and that do not ask for the time.
-/

set_option autoImplicit false

namespace ReactiveForm

/-- Texts are looked for by the last step of a path only, on the child axis, or in passing where a
double slash leads on to children. -/
def GuardedSteps : List (Step Expr) → Prop
  | [] => True
  | s :: rest =>
    (s.findsText → s.axis = .child ∧ rest = [] ∨
      s = .anyDepth ∧ ∃ next ∈ rest.head?, next.axis = .child) ∧ GuardedSteps rest

namespace Expr

mutual

/-- The expression calls no function of the clock, and all its paths are guarded. -/
def Traceable : Expr → Prop
  | .text _ => True
  | .number _ => True
  | .variable _ => True
  | .call name args => Builtin.IsTimeless name ∧ AllTraceable args
  | .binary _ l r => Traceable l ∧ Traceable r
  | .negate e => Traceable e
  | .union l r => Traceable l ∧ Traceable r
  | .filter base predicates => Traceable base ∧ AllTraceable predicates
  | .path start steps => TraceableStart start ∧ TraceableSteps steps ∧ GuardedSteps steps

def AllTraceable : List Expr → Prop
  | [] => True
  | e :: es => Traceable e ∧ AllTraceable es

def TraceableStart : Start Expr → Prop
  | .root => True
  | .context => True
  | .nodes base => Traceable base

def TraceableStep : Step Expr → Prop
  | ⟨_, _, predicates⟩ => AllTraceable predicates

def TraceableSteps : List (Step Expr) → Prop
  | [] => True
  | s :: ss => TraceableStep s ∧ TraceableSteps ss

end

end Expr

namespace Environment

open Reading

variable {t t' : Tree} {env env' : Environment ViewNode}

theorem evalAll_echoes {es : List Expr} (hes : ∀ e ∈ es, Follows t t' env env' e)
    (focus : Focus ViewNode) :
    Echoes (t.AgreeBelow t') (t.Shows focus.node) (env.evalAll es focus) (env'.evalAll es focus)
      fun vs => ∀ v ∈ vs, v.Covered t t' := by
  induction es with
  | nil =>
    rw [evalAll, evalAll]
    exact .pure fun _ => ⟨rfl, fun _ hv => absurd hv List.not_mem_nil⟩
  | cons e es ih =>
    rw [evalAll, evalAll]
    refine (hes e List.mem_cons_self focus).bind fun v => ?_
    refine ((ih fun d hd => hes d (List.mem_cons_of_mem e hd)).given And.left).bind fun vs => .pure ?_
    rintro ⟨⟨_, hv⟩, hvs⟩
    refine ⟨rfl, ?_⟩
    intro w hw
    rcases List.mem_cons.mp hw with rfl | hw
    · exact hv
    · exact hvs w hw

theorem evalChoice_echoes {es : List Expr} (hes : ∀ e ∈ es, Follows t t' env env' e)
    (focus : Focus ViewNode) :
    Echoes (t.AgreeBelow t') (t.Shows focus.node) (env.evalChoice es focus)
      (env'.evalChoice es focus) (Value.Covered t t') := by
  match es with
  | [condition, yes, no] =>
    simp only [evalChoice]
    refine (hes condition (by simp) focus).bind fun v => ?_
    cases v.toBool with
    | true => exact (hes yes (by simp) focus).given And.left
    | false => exact (hes no (by simp) focus).given And.left
  | [] | [_] | [_, _] | _ :: _ :: _ :: _ :: _ =>
    simp only [evalChoice]
    exact .fail _

theorem evalNodes_echoes {e : Expr} (he : Follows t t' env env' e) (focus : Focus ViewNode) :
    Echoes (t.AgreeBelow t') (t.Shows focus.node)
      (do Reading.ofExcept (← env.eval e focus).toNodes)
      (do Reading.ofExcept (← env'.eval e focus).toNodes)
      fun xs => ∀ x ∈ xs, t.Shows x ∧ t.AgreeBelow t' x := by
  refine (he focus).bind fun v => .ofExcept ?_
  rintro ⟨_, hv⟩
  exact ⟨rfl, fun xs hxs => Builtin.toNodes_covered hv hxs⟩

theorem follows_filter {base : Expr} {predicates : List Expr}
    (hbase : Follows t t' env env' base) (hps : ∀ p ∈ predicates, Follows t t' env env' p) :
    Follows t t' env env' (.filter base predicates) := by
  intro focus
  have heval (env : Environment ViewNode) : env.eval (.filter base predicates) focus = (do
      let xs ← (do Reading.ofExcept (← env.eval base focus).toNodes)
      pure (.nodes (← env.evalPredicates predicates xs))) := by
    simp only [eval, bind_assoc]
  rw [heval, heval]
  refine (evalNodes_echoes hbase focus).bind fun xs => ?_
  refine ((evalPredicates_echoes hps xs).given ?_).bind fun ys => .pure ?_
  · exact fun hH x hx => (hH.2 x hx).1
  · rintro ⟨⟨_, hxs⟩, hys⟩
    exact ⟨rfl, fun y hy => hxs y (hys y hy)⟩

variable (hw : t.WellFormed) (h : t.SameFrame t') (hp : env.Paired t t' env')

include h hp

theorem nodeSet_env_eq (xs : List ViewNode) :
    env'.document.nodeSet xs = env.document.nodeSet xs := by
  rw [hp.document, hp.document', h.nodeSet_eq]

theorem evalSteps_cons_echoes {s : Step Expr} {rest : List (Step Expr)}
    {xs xs' : List ViewNode} {H : Prop}
    (hfirst : Echoes (t.AgreeBelow t') H (collect (env.evalStep s rest.isEmpty) xs)
      (collect (env'.evalStep s rest.isEmpty) xs')
      fun ys => ∀ y ∈ ys, t.Shows y ∧ (rest.isEmpty → t.AgreeBelow t' y))
    (hrest : ∀ ys, Echoes (t.AgreeBelow t')
      (∀ y ∈ ys, t.Shows y ∧ (rest.isEmpty → t.AgreeBelow t' y)) (env.evalSteps rest ys)
      (env'.evalSteps rest ys) fun zs => ∀ z ∈ zs, t.Shows z ∧ t.AgreeBelow t' z) :
    Echoes (t.AgreeBelow t') H (env.evalSteps (s :: rest) xs) (env'.evalSteps (s :: rest) xs')
      fun zs => ∀ z ∈ zs, t.Shows z ∧ t.AgreeBelow t' z := by
  rw [evalSteps, evalSteps]
  refine hfirst.bind fun ys => ?_
  rw [nodeSet_env_eq h hp]
  refine (hrest _).given ?_
  rintro ⟨_, hys⟩ y hy
  exact hys y ((Document.mem_nodeSet _ y _).mp hy)

omit h in
theorem call_paired (focus : Focus ViewNode) :
    (env.call focus).Paired t t' (env'.call focus) where
  document := hp.document
  document' := hp.document'
  node := rfl
  current := hp.current
  position := rfl
  size := rfl
  shows_current := hp.shows_current

theorem apply_echoes {f : Function ViewNode} (hf : f.body.Faithful t t') (focus : Focus ViewNode)
    (args : List (Value ViewNode)) :
    Echoes (t.AgreeBelow t') (∀ v ∈ args, v.Covered t t') (f.apply (env.call focus) args)
      (f.apply (env'.call focus) args) (Value.Covered t t') := by
  have hcall := call_paired hp focus
  simp only [Function.apply]
  refine (hcall.convertAll h _ args).bind fun vs => ?_
  refine ((hf _ _ hcall vs).given And.right).bind fun v => ?_
  cases f.result with
  | none => exact .pure fun hH => ⟨rfl, hH.2⟩
  | some type => exact (hcall.coerce h v type).given And.right

theorem follows_binary {op : Operator} {l r : Expr} (hl : Follows t t' env env' l)
    (hr : Follows t t' env env' r) : Follows t t' env env' (.binary op l r) := by
  intro focus
  -- `or` and `and` read the right side only when the left leaves it open
  cases op with
  | or =>
    simp only [eval]
    refine (hl focus).bind fun v => ?_
    cases v.toBool with
    | true => exact .pure fun _ => ⟨rfl, trivial⟩
    | false => exact ((hr focus).given And.left).bind fun w => .pure fun _ => ⟨rfl, trivial⟩
  | and =>
    simp only [eval]
    refine (hl focus).bind fun v => ?_
    cases v.toBool with
    | true => exact ((hr focus).given And.left).bind fun w => .pure fun _ => ⟨rfl, trivial⟩
    | false => exact .pure fun _ => ⟨rfl, trivial⟩
  | add | sub | mul | div | mod =>
    simp only [eval, hp.document, hp.document']
    refine (hl focus).bind fun v => ?_
    refine ((hr focus).given And.left).bind fun w => .pure ?_
    rintro ⟨⟨_, hv⟩, hw⟩
    exact ⟨by rw [Value.toNumber_eq h hv, Value.toNumber_eq h hw], trivial⟩
  | eq | ne | lt | le | gt | ge =>
    simp only [eval, hp.document, hp.document']
    refine (hl focus).bind fun v => ?_
    refine ((hr focus).given And.left).bind fun w => .pure ?_
    rintro ⟨⟨_, hv⟩, hw⟩
    exact ⟨by rw [Value.compare_eq h _ hv hw], trivial⟩

theorem follows_negate {e : Expr} (he : Follows t t' env env' e) :
    Follows t t' env env' (.negate e) := by
  intro focus
  simp only [eval, hp.document, hp.document']
  refine (he focus).bind fun v => .pure ?_
  rintro ⟨_, hv⟩
  exact ⟨by rw [Value.toNumber_eq h hv], trivial⟩

theorem follows_union {l r : Expr} (hl : Follows t t' env env' l)
    (hr : Follows t t' env env' r) : Follows t t' env env' (.union l r) := by
  intro focus
  have heval (env : Environment ViewNode) : env.eval (.union l r) focus = (do
      let xs ← (do Reading.ofExcept (← env.eval l focus).toNodes)
      let ys ← (do Reading.ofExcept (← env.eval r focus).toNodes)
      pure (.nodes (env.document.nodeSet (xs ++ ys)))) := by
    simp only [eval, bind_assoc]
  rw [heval, heval]
  refine (evalNodes_echoes hl focus).bind fun xs => ?_
  refine ((evalNodes_echoes hr focus).given And.left).bind fun ys => .pure ?_
  rintro ⟨⟨_, hxs⟩, hys⟩
  refine ⟨by rw [nodeSet_env_eq h hp], ?_⟩
  intro x hx
  exact append_covered hxs hys x ((Document.mem_nodeSet _ x _).mp hx)

include hw

/-- The step after a double slash. The nodes that it starts from may differ, but for nothing that
has not been read. -/
theorem collect_below_echoes {s : Step Expr} {isLast : Bool} (haxis : s.axis = .child)
    (hlast : s.findsText → isLast) (hps : ∀ p ∈ s.predicates, Follows t t' env env' p)
    {xs : List ViewNode} (hxs : ∀ x ∈ xs, t.Shows x) {H : Prop} :
    Echoes (t.AgreeBelow t') H
      (collect (env.evalStep s isLast) (env.document.nodeSet (below env.document xs)))
      (collect (env'.evalStep s isLast) (env'.document.nodeSet (below env'.document xs)))
      fun ys => ∀ y ∈ ys, t.Shows y ∧ (isLast → t.AgreeBelow t' y) := by
  have hstep := evalStep_echoes hw h hp (fun hfinds => ⟨haxis, hlast hfinds⟩) hps
  have hshows := shows_below hw hxs
  simp only [hp.document, hp.document']
  cases hfinds : s.findsText with
  | true =>
    have hfirst := collect_lockstep (fun x => (hstep x).imp id fun _ _ hys =>
      ⟨hys.2 (hlast hfinds) hfinds, hys.1⟩) (lockstep_below hw h hxs)
    exact hfirst.given fun _ => hshows
  | false =>
    have htest : s.test.admitsText = false := by
      simpa [Step.findsText, haxis, Axis.reachesText] using hfinds
    have hnone {e : Environment ViewNode} {t : Tree} (he : e.document = t.document)
        (x : ViewNode) (hx : x.isOutside = false) : e.evalStep s isLast x = pure [] := by
      cases x with
      | text id => exact evalStep_text haxis htest he isLast id
      | document | element id => cases hx
    rw [collect_filter ViewNode.isOutside (hnone hp.document),
      collect_filter ViewNode.isOutside (hnone hp.document'), below_outside hw h hxs]
    refine (collect_echoes (fun x => (hstep x).imp id fun _ _ hys => hys.1) _).given ?_
    intro _ y hy
    exact hshows y (List.mem_filter.mp hy).1

theorem evalSteps_plain_echoes {s : Step Expr} {rest : List (Step Expr)}
    (hguard : s.findsText → s.axis = .child ∧ rest.isEmpty)
    (hps : ∀ p ∈ s.predicates, Follows t t' env env' p)
    (hrest : ∀ ys, Echoes (t.AgreeBelow t')
      (∀ y ∈ ys, t.Shows y ∧ (rest.isEmpty → t.AgreeBelow t' y)) (env.evalSteps rest ys)
      (env'.evalSteps rest ys) fun zs => ∀ z ∈ zs, t.Shows z ∧ t.AgreeBelow t' z)
    (xs : List ViewNode) :
    Echoes (t.AgreeBelow t') (∀ x ∈ xs, t.Shows x) (env.evalSteps (s :: rest) xs)
      (env'.evalSteps (s :: rest) xs) fun zs => ∀ z ∈ zs, t.Shows z ∧ t.AgreeBelow t' z :=
  evalSteps_cons_echoes h hp
    (collect_echoes (fun x => (evalStep_echoes hw h hp hguard hps x).imp id
      fun _ _ hys => hys.1) xs) hrest

theorem evalSteps_echoes : ∀ steps : List (Step Expr), GuardedSteps steps →
    (∀ s ∈ steps, ∀ p ∈ s.predicates, Follows t t' env env' p) → ∀ xs : List ViewNode,
    Echoes (t.AgreeBelow t') (∀ x ∈ xs, t.Shows x ∧ (steps.isEmpty → t.AgreeBelow t' x))
      (env.evalSteps steps xs) (env'.evalSteps steps xs)
      fun ys => ∀ y ∈ ys, t.Shows y ∧ t.AgreeBelow t' y
  | [], _, _, xs => by
    rw [evalSteps, evalSteps]
    exact .pure fun hxs => ⟨rfl, fun x hx => ⟨(hxs x hx).1, (hxs x hx).2 rfl⟩⟩
  | [s], ⟨hguard, _⟩, hps, xs => by
    have hnil := evalSteps_echoes [] trivial fun _ hs => absurd hs List.not_mem_nil
    have hplain : s.findsText → s.axis = .child ∧ ([] : List (Step Expr)).isEmpty := by
      intro hfinds
      rcases hguard hfinds with ⟨haxis, _⟩ | ⟨_, next, hnext, _⟩
      · exact ⟨haxis, rfl⟩
      · exact absurd hnext (by simp)
    refine (evalSteps_plain_echoes hw h hp hplain (hps s List.mem_cons_self) hnil xs).given ?_
    exact fun hxs x hx => (hxs x hx).1
  | s :: next :: rest, ⟨hguard, hguard', hrest⟩, hps, xs => by
    have hps' : ∀ s ∈ next :: rest, ∀ p ∈ s.predicates, Follows t t' env env' p :=
      fun s hs => hps s (List.mem_cons_of_mem _ hs)
    have hnext := evalSteps_echoes (next :: rest) ⟨hguard', hrest⟩ hps'
    have hothers := evalSteps_echoes rest hrest fun s hs => hps' s (List.mem_cons_of_mem _ hs)
    by_cases hfinds : s.findsText
    · -- a step that finds texts and is not last is `//`, and the next goes on from what is below
      obtain ⟨_, hnil⟩ | ⟨rfl, step, hstep, haxis⟩ := hguard hfinds
      · cases hnil
      obtain rfl : next = step := Option.some.inj hstep
      have hlast : next.findsText → rest.isEmpty := by
        intro hfinds
        rcases hguard' hfinds with ⟨_, rfl⟩ | ⟨rfl, _⟩
        · rfl
        · cases haxis
      rw [evalSteps_anyDepth, evalSteps_anyDepth]
      refine .under (hnext _).grows fun hxs => ?_
      refine evalSteps_cons_echoes h hp ?_ hothers
      exact collect_below_echoes hw h hp haxis hlast (hps' next List.mem_cons_self)
        fun x hx => (hxs x hx).1
    · refine (evalSteps_plain_echoes hw h hp (fun hf => absurd hf hfinds)
        (hps s List.mem_cons_self) hnext xs).given ?_
      exact fun hxs x hx => (hxs x hx).1

theorem follows_call {name : String} {args : List Expr} (htime : Builtin.IsTimeless name)
    (hargs : ∀ e ∈ args, Follows t t' env env' e) : Follows t t' env env' (.call name args) := by
  intro focus
  simp only [eval, hp.library, hp.library']
  cases hf : (Library.builtins : Library ViewNode).resolve name args.length with
  | error e => exact .fail e
  | ok f =>
    have hfaithful := Library.faithful_of_resolve hw h htime hf
    simp only [Reading.ofExcept, pure_bind]
    split
    · exact evalChoice_echoes hargs focus
    · refine (evalAll_echoes hargs focus).bind fun vs => ?_
      exact (apply_echoes h hp hfaithful focus vs).given And.right

theorem follows_path {start : Start Expr} {steps : List (Step Expr)}
    (hstart : ∀ focus, Echoes (t.AgreeBelow t') (t.Shows focus.node) (env.evalStart start focus)
      (env'.evalStart start focus) fun xs => ∀ x ∈ xs, t.Shows x)
    (hguard : GuardedSteps steps)
    (hps : ∀ s ∈ steps, ∀ p ∈ s.predicates, Follows t t' env env' p) :
    Follows t t' env env' (.path start steps) := by
  intro focus
  have hsteps := evalSteps_echoes hw h hp steps hguard hps
  simp only [eval]
  refine (hstart focus).bind fun xs => ?_
  cases hempty : steps.isEmpty with
  | true =>
    simp only [if_true]
    refine (Echoes.note fun _ => rfl).bind fun _ => ?_
    refine ((hsteps xs).given ?_).bind fun ys => .pure fun hH => ⟨rfl, hH.2⟩
    rintro ⟨⟨_, hxs⟩, hread⟩ x hx
    exact ⟨hxs x hx, fun _ => hread x hx⟩
  | false =>
    simp only [Bool.false_eq_true, if_false]
    refine ((hsteps xs).given ?_).bind fun ys => .pure fun hH => ⟨rfl, hH.2⟩
    rintro ⟨_, hxs⟩ x hx
    exact ⟨hxs x hx, fun he => nomatch hempty.symm.trans he⟩

omit hw h hp

mutual

theorem follows (hw : t.WellFormed) (h : t.SameFrame t') (hp : env.Paired t t' env') :
    (e : Expr) → e.Traceable → Follows t t' env env' e
  | .text s, _ => fun focus => by
    simp only [eval]
    exact .pure fun _ => ⟨rfl, trivial⟩
  | .number x, _ => fun focus => by
    simp only [eval]
    exact .pure fun _ => ⟨rfl, trivial⟩
  | .variable name, _ => fun focus => by
    simp only [eval, hp.bindings]
    split
    · exact .pure fun _ => ⟨rfl, trivial⟩
    · exact .fail _
  | .call _ args, ⟨htime, hargs⟩ =>
    follows_call hw h hp htime (follows_all hw h hp args hargs)
  | .binary _ l r, ⟨hl, hr⟩ =>
    follows_binary h hp (follows hw h hp l hl) (follows hw h hp r hr)
  | .negate e, he => follows_negate h hp (follows hw h hp e he)
  | .union l r, ⟨hl, hr⟩ =>
    follows_union h hp (follows hw h hp l hl) (follows hw h hp r hr)
  | .filter base ps, ⟨hbase, hps⟩ =>
    follows_filter (follows hw h hp base hbase) (follows_all hw h hp ps hps)
  | .path start steps, ⟨hstart, hsteps, hguard⟩ =>
    follows_path hw h hp (follows_start hw h hp start hstart) hguard
      (follows_steps hw h hp steps hsteps)

theorem follows_all (hw : t.WellFormed) (h : t.SameFrame t') (hp : env.Paired t t' env') :
    (es : List Expr) → Expr.AllTraceable es → ∀ e ∈ es, Follows t t' env env' e
  | [], _ => fun _ he => absurd he List.not_mem_nil
  | e :: es, ⟨he, hes⟩ =>
    List.forall_mem_cons.mpr ⟨follows hw h hp e he, follows_all hw h hp es hes⟩

theorem follows_start (hw : t.WellFormed) (h : t.SameFrame t') (hp : env.Paired t t' env') :
    (start : Start Expr) → Expr.TraceableStart start → ∀ focus,
      Echoes (t.AgreeBelow t') (t.Shows focus.node) (env.evalStart start focus)
        (env'.evalStart start focus) fun xs => ∀ x ∈ xs, t.Shows x
  | .root, _ => fun focus => by
    simp only [evalStart, hp.document, hp.document']
    exact .pure fun _ => ⟨rfl, List.forall_mem_singleton.mpr trivial⟩
  | .context, _ => fun focus => by
    simp only [evalStart]
    exact .pure fun hfocus => ⟨rfl, List.forall_mem_singleton.mpr hfocus⟩
  | .nodes base, hbase => fun focus => by
    simp only [evalStart]
    exact (evalNodes_echoes (follows hw h hp base hbase) focus).imp id
      fun _ _ hxs x hx => (hxs x hx).1

theorem follows_steps (hw : t.WellFormed) (h : t.SameFrame t') (hp : env.Paired t t' env') :
    (steps : List (Step Expr)) → Expr.TraceableSteps steps →
      ∀ s ∈ steps, ∀ p ∈ s.predicates, Follows t t' env env' p
  | [], _ => fun _ hs => absurd hs List.not_mem_nil
  | ⟨_, _, predicates⟩ :: rest, ⟨hps, hrest⟩ =>
    List.forall_mem_cons.mpr ⟨follows_all hw h hp predicates hps, follows_steps hw h hp rest hrest⟩

end

/-- The reads of an evaluation are all that it depends on in the contents of the leaves. -/
theorem evaluateTracked_eq_of_agree (hw : t.WellFormed) (h : t.SameFrame t')
    (hp : env.Paired t t' env') {e : Expr} (he : e.Traceable)
    (hagree : ∀ x ∈ (env.evaluateTracked e).2.nodes, t.AgreeBelow t' x) :
    env'.evaluateTracked e = env.evaluateTracked e ∧
      ∀ v, (env.evaluateTracked e).1 = .ok v →
        v.toText env'.document.toHostTree = v.toText env.document.toHostTree := by
  have hfocus : env'.focus = env.focus := by
    simp only [focus, hp.current, hp.position, hp.size]
  obtain ⟨out, r, hrun, _, hsame⟩ := follows hw h hp e he env.focus .empty
  have hresult : env.evaluateTracked e = (out, r) := by
    simp only [evaluateTracked, hrun, Option.getD_some]
  rw [hresult] at hagree ⊢
  obtain ⟨hrun', hcovered⟩ := hsame hp.shows_current hagree
  refine ⟨?_, ?_⟩
  · simp only [evaluateTracked, hfocus, hrun', Option.getD_some]
  · intro v hv
    rw [hp.document, hp.document', Value.toText_eq h (hcovered v hv)]

end Environment

/-- A form of two values. -/
def Definition.pair : Definition := .root { reference := "/f", name := "f" }
  [.value { reference := "/f/a", name := "a" } "1", .value { reference := "/f/b", name := "b" } "2"]

def Tree.pair : Tree := .ofDefinition .pair

def Tree.otherPair : Tree := (Tree.pair.put ⟨2, 0⟩ (.text "3")).2

def Environment.atRoot (t : Tree) : Environment ViewNode :=
  { document := t.document, current := .element t.root, library := .builtins }

/-- The expression `.//a[text()]`. -/
def Expr.pairQuery : Expr :=
  .path .context [.anyDepth, ⟨.child, .name "a", [.path .context [⟨.child, .text, []⟩]]⟩]

theorem Environment.evaluateTracked_pair :
    Tree.pair.WellFormed ∧ Tree.pair.SameFrame .otherPair ∧ Expr.pairQuery.Traceable ∧
      ((atRoot .pair).evaluateTracked .pairQuery).2.nodes = [.element ⟨1, 0⟩, .text ⟨1, 0⟩] ∧
      (atRoot .otherPair).evaluateTracked .pairQuery
        = (atRoot .pair).evaluateTracked .pairQuery := by
  have hshape : Definition.pair.Shaped := ⟨rfl, trivial, rfl, trivial, trivial⟩
  have hw : Tree.pair.WellFormed := Tree.wellFormed_ofDefinition hshape rfl
  have hframe : Tree.pair.SameFrame .otherPair := Tree.sameFrame_put (by decide) _
  have htext : GuardedSteps [⟨.child, .text, []⟩] := ⟨fun _ => .inl ⟨rfl, rfl⟩, trivial⟩
  have hsteps : GuardedSteps [.anyDepth,
      ⟨.child, .name "a", [.path .context [⟨.child, .text, []⟩]]⟩] :=
    ⟨fun _ => .inr ⟨rfl, _, rfl, rfl⟩, nofun, trivial⟩
  have htrace : Expr.pairQuery.Traceable :=
    ⟨trivial, ⟨trivial, ⟨⟨trivial, ⟨trivial, trivial⟩, htext⟩, trivial⟩, trivial⟩, hsteps⟩
  have hreads : ((atRoot .pair).evaluateTracked .pairQuery).2.nodes
      = [.element ⟨1, 0⟩, .text ⟨1, 0⟩] := by decide +kernel
  have hpaired : (atRoot .pair).Paired .pair .otherPair (atRoot .otherPair) :=
    { document := rfl, document' := rfl, library := rfl, library' := rfl, current := rfl
      position := rfl, size := rfl, bindings := rfl, shows_current := hw.shows_root }
  refine ⟨hw, hframe, htrace, hreads, ?_⟩
  refine (evaluateTracked_eq_of_agree hw hframe hpaired htrace ?_).1
  rw [hreads]
  decide

end ReactiveForm
