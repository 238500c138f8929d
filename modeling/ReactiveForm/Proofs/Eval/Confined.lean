import ReactiveForm.Eval
import ReactiveForm.Function.Builtin
import ReactiveForm.Proofs.Document.Axes
import ReactiveForm.Proofs.Document.Order
import ReactiveForm.Proofs.Eval.Steady

/-!
# Evaluation stays among the nodes it can reach

What an evaluation reads and what it gives, it finds by going along the links of the document from
the node at which it starts. So it stays in every set of nodes that is closed under the links, also
where it fails. The functions of a host are asked to do the same; a host could give back a node that
it has kept from before.
-/

set_option autoImplicit false

namespace ReactiveForm

namespace Reading

variable {N α β : Type} {S : N → Prop}

/-- All that has been read has the property. -/
def ReadsIn (S : N → Prop) (s : Log N) : Prop := ∀ r ∈ s, ∀ x ∈ r.nodes, S x

theorem readsIn_empty [DecidableEq N] : ReadsIn S (some .empty) := by
  rintro r ⟨⟩ x hx
  exact absurd hx List.not_mem_nil

theorem ReadsIn.getD [DecidableEq N] {s : Log N} (h : ReadsIn S s) :
    ∀ x ∈ (s.getD .empty).nodes, S x := by
  cases s with
  | none => exact fun _ hx => absurd hx List.not_mem_nil
  | some r => exact h r rfl

/-- The computation reads nodes of `S` only, also if it fails, and a value among the results has
`P`. -/
def Confined (S : N → Prop) (m : Reading N α) (P : α → Prop) : Prop :=
  ∀ s, ReadsIn S s → ReadsIn S (m.run s).2 ∧ ∀ a, (m.run s).1 = .ok a → P a

namespace Confined

variable {m : Reading N α} {P : α → Prop}

theorem pure {a : α} (h : P a) : Confined S (Pure.pure a) P := by
  refine fun s hs => ⟨hs, ?_⟩
  rintro b ⟨⟩
  exact h

theorem fail (e : EvalError) : Confined S (Reading.fail e : Reading N α) P :=
  fun _ hs => ⟨hs, fun _ ha => nomatch ha⟩

theorem ofExcept {v : Except EvalError α} (h : ∀ a, v = .ok a → P a) :
    Confined S (Reading.ofExcept v) P := by
  cases v with
  | error e => exact .fail e
  | ok a => exact .pure (h a rfl)

theorem note [DecidableEq N] {xs : List N} (h : ∀ x ∈ xs, S x) :
    Confined S (Reading.note xs) fun _ => True := by
  refine fun s hs => ⟨?_, fun _ _ => trivial⟩
  rintro r hr x hx
  obtain ⟨r, hbefore, rfl⟩ := Option.map_eq_some_iff.mp hr
  rcases (r.mem_recordAll xs x).mp hx with hx | hx
  · exact hs r hbefore x hx
  · exact h x hx

theorem bind {f : α → Reading N β} {Q : β → Prop} (hm : Confined S m P)
    (hf : ∀ a, P a → Confined S (f a) Q) : Confined S (m >>= f) Q := by
  intro s hs
  obtain ⟨hlog, hresult⟩ := hm s hs
  cases hrun : m.run s with
  | mk out s' =>
    rw [hrun] at hlog hresult
    cases out with
    | error e =>
      rw [run_bind_error hrun]
      exact ⟨hlog, fun _ hb => nomatch hb⟩
    | ok a =>
      rw [run_bind_ok hrun]
      exact hf a (hresult a rfl) s' hlog

theorem after {f : α → Reading N β} {Q : β → Prop} (hm : Confined S m P)
    (hf : ∀ a, Confined S (f a) Q) : Confined S (m >>= f) Q :=
  hm.bind fun a _ => hf a

theorem mapM {γ : Type} {f : γ → Reading N α} {xs : List γ}
    (hf : ∀ x ∈ xs, Confined S (f x) fun _ => True) : Confined S (xs.mapM f) fun _ => True := by
  induction xs with
  | nil =>
    rw [List.mapM_nil]
    exact .pure trivial
  | cons x xs ih =>
    rw [List.mapM_cons]
    refine .after (hf x List.mem_cons_self) fun _ => ?_
    exact .after (ih fun y hy => hf y (List.mem_cons_of_mem x hy)) fun _ => .pure trivial

end Confined

end Reading

open Reading (Confined)

variable {N : Type} [DecidableEq N] [Ord N] {S : N → Prop}

/-! ## Calls -/

/-- The nodes of which `S` holds are closed under the links of the document, and its root is among
them if any node is. -/
structure Document.ClosedOn (d : Document N) (S : N → Prop) : Prop extends
    HostTree.ClosedOn d.toHostTree S where
  root : ∀ {x}, S x → S (d.root x)

/-- The nodes of a node-set are in `S`. -/
def Value.Within (S : N → Prop) : Value N → Prop
  | .atom _ => True
  | .nodes xs => ∀ x ∈ xs, S x

/-- All that a function is shown is in `S`. -/
structure Call.Within (S : N → Prop) (c : Call N) : Prop where
  document : c.document.ClosedOn S
  node : S c.node
  current : S c.current

/-- Whatever nodes a function is shown, it stays among those that it can reach from them. -/
def Body.Confined (body : Body N) : Prop :=
  ∀ (S : N → Prop) (c : Call N), c.Within S → ∀ args, (∀ v ∈ args, v.Within S) →
    Reading.Confined S (body c args) (Value.Within S)

omit [DecidableEq N] [Ord N] in
theorem Value.Within.toNodes {v : Value N} (h : v.Within S) {xs : List N}
    (hxs : v.toNodes = .ok xs) : ∀ x ∈ xs, S x := by
  obtain rfl := eq_nodes hxs
  exact h

omit [DecidableEq N] [Ord N] in
theorem Value.Within.coerce {v w : Value N} (h : v.Within S) {t : HostTree N} {type : ValueType}
    (hw : v.coerce t type = .ok w) : w.Within S := by
  cases type with
  | string | number | boolean =>
    obtain rfl := Except.ok.inj hw
    trivial
  | nodeSet =>
    cases v with
    | atom a => exact nomatch hw
    | nodes xs =>
      obtain rfl := Except.ok.inj hw
      exact h

namespace Call

variable (c : Call N)

theorem confined_textOf {x : N} (hx : S x) : Confined S (c.textOf x) fun _ => True :=
  .after (.note (List.forall_mem_singleton.mpr hx)) fun _ => .pure trivial

theorem confined_valueText {v : Value N} (hv : v.Within S) :
    Confined S (c.valueText v) fun _ => True := by
  match v with
  | .nodes [] => exact .pure trivial
  | .nodes (x :: _) => exact c.confined_textOf (hv x List.mem_cons_self)
  | .atom a => exact .pure trivial

theorem confined_valueNumber {v : Value N} (hv : v.Within S) :
    Confined S (c.valueNumber v) fun _ => True := by
  cases v with
  | atom a => exact .pure trivial
  | nodes xs => exact .after (c.confined_valueText hv) fun _ => .pure trivial

theorem confined_convert {v : Value N} (hv : v.Within S) (type : Option ValueType) :
    Confined S (c.convert v type) (Value.Within S) := by
  match type with
  | none => exact .pure hv
  | some .string => exact .after (c.confined_valueText hv) fun _ => .pure trivial
  | some .number => exact .after (c.confined_valueNumber hv) fun _ => .pure trivial
  | some .boolean | some .nodeSet => exact .ofExcept fun _ hw => hv.coerce hw

theorem confined_convertAll (parameters : List (Option ValueType)) {args : List (Value N)}
    (hargs : ∀ v ∈ args, v.Within S) :
    Confined S (c.convertAll parameters args) fun vs => ∀ v ∈ vs, v.Within S := by
  induction args generalizing parameters with
  | nil =>
    simp only [convertAll]
    exact .pure fun _ hv => absurd hv List.not_mem_nil
  | cons v vs ih =>
    simp only [convertAll]
    obtain ⟨hv, hvs⟩ := List.forall_mem_cons.mp hargs
    refine (c.confined_convert hv _).bind fun first hfirst => ?_
    exact (ih _ hvs).bind fun rest hrest => .pure (List.forall_mem_cons.mpr ⟨hfirst, hrest⟩)

theorem confined_texts {v : Value N} (hv : v.Within S) :
    Confined S (c.texts v) fun _ => True := by
  cases v with
  | atom a => exact .pure trivial
  | nodes xs => exact .mapM fun x hx => c.confined_textOf (hv x hx)

theorem confined_allTexts {vs : List (Value N)} (hvs : ∀ v ∈ vs, v.Within S) :
    Confined S (c.allTexts vs) fun _ => True := by
  induction vs with
  | nil => exact .pure trivial
  | cons v vs ih =>
    obtain ⟨hv, hvs⟩ := List.forall_mem_cons.mp hvs
    exact .after (c.confined_texts hv) fun _ => .after (ih hvs) fun _ => .pure trivial

theorem confined_numbers {v : Value N} (hv : v.Within S) :
    Confined S (c.numbers v) fun _ => True := by
  cases v with
  | atom a => exact .pure trivial
  | nodes xs =>
    exact .after (.mapM fun x hx => c.confined_textOf (hv x hx)) fun _ => .pure trivial

theorem confined_allNumbers {vs : List (Value N)} (hvs : ∀ v ∈ vs, v.Within S) :
    Confined S (c.allNumbers vs) fun _ => True := by
  induction vs with
  | nil => exact .pure trivial
  | cons v vs ih =>
    obtain ⟨hv, hvs⟩ := List.forall_mem_cons.mp hvs
    exact .after (c.confined_numbers hv) fun _ => .after (ih hvs) fun _ => .pure trivial

end Call

/-! ## The built-in functions -/

namespace Builtin

/-- A function that makes an atom of what it is shown, and reads nothing. -/
theorem confined_pure (f : Call N → List (Value N) → Atom) :
    Body.Confined fun c args => pure (.atom (f c args)) :=
  fun _ _ _ _ _ => .pure trivial

theorem confined_choose : Body.Confined (choose : Body N) := by
  intro S c _ args hargs
  have hget (i : Nat) : ((args[i]?).getD (.nodes [])).Within S := by
    cases hv : args[i]? with
    | none => exact fun _ hx => absurd hx List.not_mem_nil
    | some v => exact hargs v (List.mem_of_getElem? hv)
  refine .pure ?_
  split
  · exact hget 1
  · exact hget 2

theorem confined_position : Body.Confined (position : Body N) := by
  intro S c _ args _
  match args with
  | [] => exact .pure trivial
  | v :: _ =>
    refine .after (.ofExcept fun _ _ => trivial) fun xs => ?_
    match xs with
    | [] => exact .pure trivial
    | _ :: _ => exact .pure trivial

theorem confined_count : Body.Confined (count : Body N) :=
  fun _ _ _ _ _ => .after (.ofExcept fun _ _ => trivial) fun _ => .pure trivial

theorem confined_subject (c : Call N) (args : List (Value N)) :
    Confined S (subject c args) fun _ => True := by
  match args with
  | [] => exact .pure trivial
  | _ :: _ => exact .after (.ofExcept fun _ _ => trivial) fun _ => .pure trivial

theorem confined_name : Body.Confined (name : Body N) :=
  fun _ c _ args _ => .after (confined_subject c args) fun _ => .pure trivial

theorem confined_localName : Body.Confined (localName : Body N) :=
  fun _ c _ args _ => .after (confined_subject c args) fun _ => .pure trivial

theorem confined_current : Body.Confined (current : Body N) := by
  intro S c hc args _
  have hcurrent : ∀ x ∈ [c.current], S x := List.forall_mem_singleton.mpr hc.current
  exact .after (.note hcurrent) fun _ => .pure hcurrent

theorem confined_textOrContext {c : Call N} (hc : c.Within S) (args : List (Value N)) :
    Confined S (textOrContext c args) fun _ => True := by
  match args with
  | [] => exact c.confined_textOf hc.node
  | _ :: _ => exact .pure trivial

theorem confined_string : Body.Confined (string : Body N) := by
  intro S c hc args hargs
  match args with
  | [] => exact .after (c.confined_textOf hc.node) fun _ => .pure trivial
  | v :: _ =>
    exact .after (c.confined_valueText (hargs v List.mem_cons_self)) fun _ => .pure trivial

theorem confined_stringLength : Body.Confined (stringLength : Body N) :=
  fun _ _ hc args _ => .after (confined_textOrContext hc args) fun _ => .pure trivial

theorem confined_normalizeSpace : Body.Confined (normalizeSpace : Body N) :=
  fun _ _ hc args _ => .after (confined_textOrContext hc args) fun _ => .pure trivial

theorem confined_join : Body.Confined (join : Body N) := by
  intro S c _ args hargs
  match args with
  | [] => exact .pure trivial
  | v :: vs =>
    obtain ⟨hv, hvs⟩ := List.forall_mem_cons.mp hargs
    exact .after (c.confined_valueText hv) fun _ =>
      .after (c.confined_allTexts hvs) fun _ => .pure trivial

theorem confined_regex : Body.Confined (regex : Body N) := by
  intro S c _ args _
  unfold regex
  split
  · split
    · exact .pure trivial
    · exact .fail _
  · exact .fail _

theorem confined_number : Body.Confined (number : Body N) := by
  intro S c hc args hargs
  match args with
  | [] => exact .after (c.confined_textOf hc.node) fun _ => .pure trivial
  | v :: _ =>
    exact .after (c.confined_valueNumber (hargs v List.mem_cons_self)) fun _ => .pure trivial

theorem confined_sum : Body.Confined (sum : Body N) := by
  intro S c _ args hargs
  have hfirst : (args.headD (.nodes [])).Within S := by
    cases args with
    | nil => exact fun _ hx => absurd hx List.not_mem_nil
    | cons v vs => exact hargs v List.mem_cons_self
  refine Confined.bind (P := fun xs => ∀ x ∈ xs, S x) (.ofExcept fun _ hxs => hfirst.toNodes hxs)
    fun xs hxs => ?_
  have hnodes : (Value.nodes xs).Within S := hxs
  exact .after (c.confined_numbers hnodes) fun _ => .pure trivial

theorem confined_min : Body.Confined (min : Body N) :=
  fun _ c _ _ hargs => .after (c.confined_allNumbers hargs) fun _ => .pure trivial

theorem confined_max : Body.Confined (max : Body N) :=
  fun _ c _ _ hargs => .after (c.confined_allNumbers hargs) fun _ => .pure trivial

theorem Known.confined {body : Body N} (h : Known body) : body.Confined := by
  cases h with
  | plain f => exact confined_pure f
  | position => exact confined_position
  | count => exact confined_count
  | localName => exact confined_localName
  | name => exact confined_name
  | current => exact confined_current
  | string => exact confined_string
  | stringLength => exact confined_stringLength
  | normalizeSpace => exact confined_normalizeSpace
  | join => exact confined_join
  | regex => exact confined_regex
  | number => exact confined_number
  | sum => exact confined_sum
  | min => exact confined_min
  | max => exact confined_max

end Builtin

/-- All functions of the library are confined. -/
def Library.Confined (l : Library N) : Prop := ∀ e ∈ l.entries, e.2.body.Confined

theorem Library.confined_builtins : (builtins : Library N).Confined := by
  intro e he
  cases Builtin.listed_builtins e he with
  | conditional => exact Builtin.confined_choose
  | function hbody => exact hbody.confined

/-! ## Evaluation -/

namespace Environment

omit [DecidableEq N] [Ord N] in
theorem confined_collect {f : N → Reading N (List N)}
    (hf : ∀ x, S x → Confined S (f x) fun ys => ∀ y ∈ ys, S y) {xs : List N}
    (hxs : ∀ x ∈ xs, S x) : Confined S (collect f xs) fun ys => ∀ y ∈ ys, S y := by
  induction xs with
  | nil => exact .pure hxs
  | cons x xs ih =>
    obtain ⟨hx, hxs⟩ := List.forall_mem_cons.mp hxs
    refine (hf x hx).bind fun ys hys => (ih hxs).bind fun zs hzs => .pure ?_
    exact List.forall_mem_append.mpr ⟨hys, hzs⟩

omit [DecidableEq N] [Ord N] in
theorem confined_select {holds : Focus N → Reading N Bool}
    (hholds : ∀ focus, S focus.node → Confined S (holds focus) fun _ => True) (size position : Nat)
    {xs : List N} (hxs : ∀ x ∈ xs, S x) :
    Confined S (select holds size position xs) fun ys => ∀ y ∈ ys, S y := by
  induction xs generalizing position with
  | nil => exact .pure hxs
  | cons x xs ih =>
    obtain ⟨hx, hxs⟩ := List.forall_mem_cons.mp hxs
    refine .after (hholds ⟨x, position, size⟩ hx) fun keep => ?_
    refine (ih (position + 1) hxs).bind fun ys hys => .pure ?_
    cases keep with
    | true => exact List.forall_mem_cons.mpr ⟨hx, hys⟩
    | false => exact hys

/-- An evaluation that starts in `S`, with functions that are confined. -/
structure Within (S : N → Prop) (env : Environment N) : Prop where
  document : env.document.ClosedOn S
  current : S env.current
  library : env.library.Confined

variable {env : Environment N} (h : env.Within S)

include h

theorem confined_candidates (axis : Axis) (test : NodeTest) (isLast : Bool) {x : N} (hx : S x) :
    Confined S (env.candidates axis test isLast x) fun ys => ∀ y ∈ ys, S y := by
  have hfound : ∀ y ∈ (env.document.along x axis).filter (env.document.passes axis test), S y :=
    fun y hy => h.document.toClosedOn.along hx (List.mem_filter.mp hy).1
  unfold candidates
  cases isLast with
  | true =>
    simp only [if_true]
    split
    · exact .after (.note (List.forall_mem_singleton.mpr hx)) fun _ =>
        .after (.note hfound) fun _ => .pure hfound
    · exact .after (.note hfound) fun _ => .pure hfound
  | false => exact .pure hfound

theorem confined_apply {f : Function N} (hf : f.body.Confined) {focus : Focus N}
    (hfocus : S focus.node) {args : List (Value N)} (hargs : ∀ v ∈ args, v.Within S) :
    Confined S (f.apply (env.call focus) args) (Value.Within S) := by
  have hcall : (env.call focus).Within S := ⟨h.document, hfocus, h.current⟩
  unfold Function.apply
  refine (Call.confined_convertAll _ _ hargs).bind fun vs hvs => ?_
  refine (hf S _ hcall vs hvs).bind fun v hv => ?_
  split
  · exact .pure hv
  · exact .ofExcept fun _ hw => hv.coerce hw

omit h

/-- The expression is evaluated within `S` from every node of `S`. -/
def Stays (env : Environment N) (S : N → Prop) (e : Expr) : Prop :=
  ∀ focus, S focus.node → Confined S (env.eval e focus) (Value.Within S)

theorem confined_nodes {e : Expr} (he : env.Stays S e) {focus : Focus N} (hfocus : S focus.node) :
    Confined S (do Reading.ofExcept (← env.eval e focus).toNodes) fun xs => ∀ x ∈ xs, S x :=
  (he focus hfocus).bind fun _ hv => .ofExcept fun _ hxs => hv.toNodes hxs

theorem confined_evalAll {es : List Expr} (hes : ∀ e ∈ es, env.Stays S e) {focus : Focus N}
    (hfocus : S focus.node) : Confined S (env.evalAll es focus) fun vs => ∀ v ∈ vs, v.Within S := by
  induction es with
  | nil =>
    simp only [evalAll]
    exact .pure fun _ hv => absurd hv List.not_mem_nil
  | cons e es ih =>
    simp only [evalAll]
    obtain ⟨he, hes⟩ := List.forall_mem_cons.mp hes
    refine (he focus hfocus).bind fun v hv => (ih hes).bind fun vs hvs => .pure ?_
    exact List.forall_mem_cons.mpr ⟨hv, hvs⟩

theorem confined_evalChoice {es : List Expr} (hes : ∀ e ∈ es, env.Stays S e) {focus : Focus N}
    (hfocus : S focus.node) : Confined S (env.evalChoice es focus) (Value.Within S) := by
  match es with
  | [condition, yes, no] =>
    simp only [evalChoice]
    refine .after (hes condition (by simp) focus hfocus) fun v => ?_
    cases v.toBool with
    | true => exact hes yes (by simp) focus hfocus
    | false => exact hes no (by simp) focus hfocus
  | [] | [_] | [_, _] | _ :: _ :: _ :: _ :: _ =>
    simp only [evalChoice]
    exact .fail _

theorem stays_binary {op : Operator} {l r : Expr} (hl : env.Stays S l) (hr : env.Stays S r) :
    env.Stays S (.binary op l r) := by
  intro focus hfocus
  have hl := hl focus hfocus
  have hr := hr focus hfocus
  cases op with
  | or =>
    simp only [eval]
    refine .after hl fun v => ?_
    cases v.toBool with
    | true => exact .pure trivial
    | false => exact .after hr fun _ => .pure trivial
  | and =>
    simp only [eval]
    refine .after hl fun v => ?_
    cases v.toBool with
    | true => exact .after hr fun _ => .pure trivial
    | false => exact .pure trivial
  | add | sub | mul | div | mod | eq | ne | lt | le | gt | ge =>
    simp only [eval]
    exact .after hl fun _ => .after hr fun _ => .pure trivial

theorem stays_union {l r : Expr} (hl : env.Stays S l) (hr : env.Stays S r) :
    env.Stays S (.union l r) := by
  intro focus hfocus
  have heval : env.eval (.union l r) focus = (do
      let xs ← (do Reading.ofExcept (← env.eval l focus).toNodes)
      let ys ← (do Reading.ofExcept (← env.eval r focus).toNodes)
      pure (.nodes (env.document.nodeSet (xs ++ ys)))) := by
    simp only [eval, bind_assoc]
  rw [heval]
  refine (confined_nodes hl hfocus).bind fun xs hxs => ?_
  refine (confined_nodes hr hfocus).bind fun ys hys => .pure fun x hx => ?_
  exact List.forall_mem_append.mpr ⟨hxs, hys⟩ x ((env.document.mem_nodeSet x _).mp hx)

theorem confined_evalPredicates {ps : List Expr} (hps : ∀ p ∈ ps, env.Stays S p) {xs : List N}
    (hxs : ∀ x ∈ xs, S x) : Confined S (env.evalPredicates ps xs) fun ys => ∀ y ∈ ys, S y := by
  induction ps generalizing xs with
  | nil =>
    simp only [evalPredicates]
    exact .pure hxs
  | cons p ps ih =>
    simp only [evalPredicates]
    obtain ⟨hp, hps⟩ := List.forall_mem_cons.mp hps
    have hholds (focus : Focus N) (hfocus : S focus.node) :
        Confined S (do pure (admits focus.position (← env.eval p focus))) fun _ => True :=
      .after (hp focus hfocus) fun _ => .pure trivial
    exact (confined_select hholds xs.length 1 hxs).bind fun ys hys => ih hps hys

theorem stays_filter {base : Expr} {ps : List Expr} (hbase : env.Stays S base)
    (hps : ∀ p ∈ ps, env.Stays S p) : env.Stays S (.filter base ps) := by
  intro focus hfocus
  have heval : env.eval (.filter base ps) focus = (do
      let xs ← (do Reading.ofExcept (← env.eval base focus).toNodes)
      pure (.nodes (← env.evalPredicates ps xs))) := by
    simp only [eval, bind_assoc]
  rw [heval]
  refine (confined_nodes hbase hfocus).bind fun xs hxs => ?_
  exact (confined_evalPredicates hps hxs).bind fun ys hys => .pure hys

include h

theorem confined_evalStep {s : Step Expr} (hps : ∀ p ∈ s.predicates, env.Stays S p)
    (isLast : Bool) {x : N} (hx : S x) :
    Confined S (env.evalStep s isLast x) fun ys => ∀ y ∈ ys, S y := by
  obtain ⟨axis, test, predicates⟩ := s
  simp only [evalStep]
  exact (confined_candidates h axis test isLast hx).bind fun ys hys =>
    confined_evalPredicates hps hys

theorem confined_evalSteps {steps : List (Step Expr)}
    (hsteps : ∀ s ∈ steps, ∀ p ∈ s.predicates, env.Stays S p) {xs : List N}
    (hxs : ∀ x ∈ xs, S x) : Confined S (env.evalSteps steps xs) fun ys => ∀ y ∈ ys, S y := by
  induction steps generalizing xs with
  | nil =>
    simp only [evalSteps]
    exact .pure hxs
  | cons s steps ih =>
    simp only [evalSteps]
    obtain ⟨hs, hsteps⟩ := List.forall_mem_cons.mp hsteps
    have hstep := confined_collect (fun x hx => confined_evalStep h hs steps.isEmpty hx) hxs
    refine hstep.bind fun found hfound => ih hsteps fun x hx => ?_
    exact hfound x ((env.document.mem_nodeSet x _).mp hx)

theorem stays_path {start : Start Expr} {steps : List (Step Expr)}
    (hstart : ∀ focus, S focus.node →
      Confined S (env.evalStart start focus) fun xs => ∀ x ∈ xs, S x)
    (hsteps : ∀ s ∈ steps, ∀ p ∈ s.predicates, env.Stays S p) :
    env.Stays S (.path start steps) := by
  intro focus hfocus
  simp only [eval]
  refine (hstart focus hfocus).bind fun xs hxs => ?_
  have hfound := (confined_evalSteps h hsteps hxs).bind fun ys hys =>
    Confined.pure (N := N) (a := Value.nodes ys) (P := Value.Within S) hys
  cases steps.isEmpty with
  | true => exact .after (.note hxs) fun _ => hfound
  | false => exact hfound

theorem stays_call {name : String} {args : List Expr} (hargs : ∀ e ∈ args, env.Stays S e) :
    env.Stays S (.call name args) := by
  intro focus hfocus
  simp only [eval]
  refine Confined.bind (P := fun f => (name, f) ∈ env.library.entries)
    (.ofExcept fun f hf => Library.mem_of_resolve hf) fun f hf => ?_
  -- a conditional is no call: only one of its branches is evaluated
  split
  · exact confined_evalChoice hargs hfocus
  · exact (confined_evalAll hargs hfocus).bind fun vs hvs =>
      confined_apply h (h.library _ hf) hfocus hvs

omit h

mutual

/-- Evaluation stays in a set of nodes that is closed under the links of the document. -/
theorem stays (h : env.Within S) : (e : Expr) → env.Stays S e
  | .text _ => fun focus _ => by
    simp only [eval]
    exact .pure trivial
  | .number _ => fun focus _ => by
    simp only [eval]
    exact .pure trivial
  | .variable name => fun focus _ => by
    simp only [eval]
    split
    · exact .pure trivial
    · exact .fail _
  | .call _ args => stays_call h (stays_all h args)
  | .binary _ l r => stays_binary (stays h l) (stays h r)
  | .negate e => fun focus hfocus => by
    simp only [eval]
    exact .after (stays h e focus hfocus) fun _ => .pure trivial
  | .union l r => stays_union (stays h l) (stays h r)
  | .filter base ps => stays_filter (stays h base) (stays_all h ps)
  | .path start steps => stays_path h (confined_evalStart h start) (stays_steps h steps)

theorem stays_all (h : env.Within S) : (es : List Expr) → ∀ e ∈ es, env.Stays S e
  | [] => fun _ he => absurd he List.not_mem_nil
  | e :: es => List.forall_mem_cons.mpr ⟨stays h e, stays_all h es⟩

theorem confined_evalStart (h : env.Within S) : (start : Start Expr) → ∀ focus, S focus.node →
    Confined S (env.evalStart start focus) fun xs => ∀ x ∈ xs, S x
  | .root => fun focus hfocus => by
    simp only [evalStart]
    exact .pure (List.forall_mem_singleton.mpr (h.document.root hfocus))
  | .context => fun focus hfocus => by
    simp only [evalStart]
    exact .pure (List.forall_mem_singleton.mpr hfocus)
  | .nodes base => fun focus hfocus => by
    simp only [evalStart]
    exact confined_nodes (stays h base) hfocus

theorem stays_steps (h : env.Within S) :
    (steps : List (Step Expr)) → ∀ s ∈ steps, ∀ p ∈ s.predicates, env.Stays S p
  | [] => fun _ hs => absurd hs List.not_mem_nil
  | ⟨_, _, predicates⟩ :: rest =>
    List.forall_mem_cons.mpr ⟨stays_all h predicates, stays_steps h rest⟩

end

end Environment

end ReactiveForm
