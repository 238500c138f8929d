import ReactiveForm.Proofs.Eval.Inherited

/-!
# Evaluation does not look at its log

The log of an evaluation is only ever written to. So the result of an evaluation is the same
whatever has been read before, and whether or not anybody asks for the reads.
-/

set_option autoImplicit false

namespace ReactiveForm

namespace Reading

variable {N α β : Type}

/-- The result is the same whatever has been read before, and a value among the results has `P`. -/
def Yields (m : Reading N α) (P : α → Prop) : Prop :=
  ∃ out, (∀ s, (m.run s).1 = out) ∧ ∀ a, out = .ok a → P a

/-- The result is the same whatever has been read before. -/
def Steady (m : Reading N α) : Prop := Yields m fun _ => True

namespace Yields

variable {m : Reading N α} {P : α → Prop}

theorem pure {a : α} (h : P a) : Yields (Pure.pure a : Reading N α) P := by
  refine ⟨.ok a, fun _ => rfl, ?_⟩
  rintro b ⟨⟩
  exact h

theorem fail (e : EvalError) : Yields (Reading.fail e : Reading N α) P :=
  ⟨.error e, fun _ => rfl, fun _ h => nomatch h⟩

theorem ofExcept {v : Except EvalError α} (h : ∀ a, v = .ok a → P a) :
    Yields (Reading.ofExcept v : Reading N α) P := by
  refine ⟨v, fun _ => ?_, h⟩
  cases v <;> rfl

theorem note [DecidableEq N] (xs : List N) : Steady (Reading.note xs) :=
  ⟨.ok (), fun _ => rfl, fun _ _ => trivial⟩

theorem bind {f : α → Reading N β} {Q : β → Prop} (hm : Yields m P)
    (hf : ∀ a, P a → Yields (f a) Q) : Yields (m >>= f) Q := by
  obtain ⟨out, hout, hP⟩ := hm
  cases out with
  | error e =>
    refine ⟨.error e, fun s => ?_, fun _ h => nomatch h⟩
    have hrun : m.run s = (.error e, (m.run s).2) := Prod.ext (hout s) rfl
    rw [run_bind_error hrun]
  | ok a =>
    obtain ⟨out, hrest, hQ⟩ := hf a (hP a rfl)
    refine ⟨out, fun s => ?_, hQ⟩
    have hrun : m.run s = (.ok a, (m.run s).2) := Prod.ext (hout s) rfl
    rw [run_bind_ok hrun, hrest]

theorem imp {Q : α → Prop} (hm : Yields m P) (h : ∀ a, P a → Q a) : Yields m Q := by
  obtain ⟨out, hout, hP⟩ := hm
  exact ⟨out, hout, fun a ha => h a (hP a ha)⟩

theorem steady (hm : Yields m P) : Steady m := hm.imp fun _ _ => trivial

/-- The part that comes first matters only in that it is steady. -/
theorem after {f : α → Reading N β} {Q : β → Prop} (hm : Steady m)
    (hf : ∀ a, Yields (f a) Q) : Yields (m >>= f) Q :=
  hm.bind fun a _ => hf a

end Yields

theorem Yields.of_value {m : Reading N α} {P : α → Prop} (hm : Yields m P) {a : α}
    (ha : m.value = .ok a) : P a := by
  obtain ⟨out, hout, hP⟩ := hm
  exact hP a ((hout none).symm.trans ha)

/-- Of steady parts, the results alone decide the result of the whole. -/
theorem Steady.value_bind {m : Reading N α} {f : α → Reading N β} (hf : ∀ a, Steady (f a)) :
    (m >>= f).value = m.value >>= fun a => (f a).value := by
  unfold value
  cases hrun : m.run none with
  | mk out s =>
    cases out with
    | error e =>
      rw [run_bind_error hrun]
      rfl
    | ok a =>
      obtain ⟨out, hout, _⟩ := hf a
      rw [run_bind_ok hrun, hout s]
      exact (hout none).symm

theorem inherited_steady [DecidableEq N] : Inherited (N := N) fun _ m => Steady m where
  pure _ := .pure trivial
  fail e := .fail e
  note xs := .note xs
  bind hm hf := by
    obtain ⟨out, hout, _⟩ := hm
    have hyields : Yields _ fun a => out = .ok a := ⟨out, hout, fun _ ha => ha⟩
    exact hyields.bind fun a ha => hf a ((hout none).trans ha)

end Reading

open Reading (Steady Yields inherited_steady)

variable {N : Type} [DecidableEq N] [Ord N]

/-! ## The built-in functions -/

def Body.Steady (body : Body N) : Prop := ∀ c args, Reading.Steady (body c args)

omit [DecidableEq N] [Ord N] in
theorem Value.eq_nodes {v : Value N} {xs : List N} (h : v.toNodes = .ok xs) : v = .nodes xs := by
  cases v with
  | atom a => cases h
  | nodes ys => exact congrArg Value.nodes (Except.ok.inj h)

def Value.IsAtom : Value N → Prop
  | .atom _ => True
  | .nodes _ => False

/-- The function is steady and has atoms as its values. -/
def Body.Atomic (body : Body N) : Prop := ∀ c args, Yields (body c args) Value.IsAtom

theorem Body.Atomic.steady {body : Body N} (h : body.Atomic) : body.Steady :=
  fun c args => (h c args).steady

namespace Builtin

/-- All values are atoms, unless the current node is asked for. -/
theorem Known.atomic {body : Body N} (h : Known body) : body.Atomic ∨ body = Builtin.current := by
  cases h with
  | current => exact .inr rfl
  | plain f => exact .inl fun _ _ => .pure trivial
  | position =>
    refine .inl fun c args => ?_
    match args with
    | [] => exact .pure trivial
    | v :: _ =>
      refine .after (.ofExcept fun _ _ => trivial) fun xs => ?_
      match xs with
      | [] => exact .pure trivial
      | _ :: _ => exact .pure trivial
  | count => exact .inl fun _ _ => .after (.ofExcept fun _ _ => trivial) fun _ => .pure trivial
  | localName =>
    exact .inl fun c args => .after (inherited_steady.subject c args) fun _ => .pure trivial
  | name => exact .inl fun c args => .after (inherited_steady.subject c args) fun _ => .pure trivial
  | string =>
    refine .inl fun c args => ?_
    match args with
    | [] => exact .after (inherited_steady.textOf c c.node) fun _ => .pure trivial
    | v :: _ => exact .after (inherited_steady.valueText c v) fun _ => .pure trivial
  | stringLength =>
    exact .inl fun c args => .after (inherited_steady.textOrContext c args) fun _ => .pure trivial
  | normalizeSpace =>
    exact .inl fun c args => .after (inherited_steady.textOrContext c args) fun _ => .pure trivial
  | join =>
    refine .inl fun c args => ?_
    match args with
    | [] => exact .pure trivial
    | v :: vs =>
      exact .after (inherited_steady.valueText c v) fun _ =>
        .after (inherited_steady.allTexts c vs) fun _ => .pure trivial
  | regex =>
    refine .inl fun c args => ?_
    unfold Builtin.regex
    split
    · split
      · exact .pure trivial
      · exact .fail _
    · exact .fail _
  | number =>
    refine .inl fun c args => ?_
    match args with
    | [] => exact .after (inherited_steady.textOf c c.node) fun _ => .pure trivial
    | v :: _ => exact .after (inherited_steady.valueNumber c v) fun _ => .pure trivial
  | sum =>
    exact .inl fun c _ => .after (.ofExcept fun _ _ => trivial) fun xs =>
      .after (inherited_steady.numbers c (.nodes xs)) fun _ => .pure trivial
  | min | max =>
    exact .inl fun c args => .after (inherited_steady.allNumbers c args) fun _ => .pure trivial

/-- An entry with a steady function. All values are atoms, unless the entry is the conditional,
which is evaluated by a rule of its own, or gives the current node. -/
structure Regular (e : String × Function N) : Prop where
  builtin : e.2.builtin
  result : e.2.result = none
  body : e.2.body.Atomic ∨ e.1 = "if" ∧ e.2.body = choose ∨ e.2.body = current

theorem Regular.steady {e : String × Function N} (h : Regular e) : e.2.body.Steady := by
  rcases h.body with hbody | ⟨_, hbody⟩ | hbody
  · exact hbody.steady
  · rw [hbody]
    exact fun _ _ => .pure trivial
  · rw [hbody]
    exact fun c _ => .after (.note [c.current]) fun _ => .pure trivial

theorem regular_builtins : ∀ e ∈ (Library.builtins : Library N).entries, Regular e := by
  intro e he
  cases listed_builtins e he with
  | conditional => exact ⟨rfl, rfl, .inr (.inl ⟨rfl, rfl⟩)⟩
  | function hbody => exact ⟨rfl, rfl, hbody.atomic.imp_right .inr⟩

end Builtin

/-- All functions of the library are steady. -/
def Library.Steady (l : Library N) : Prop := ∀ e ∈ l.entries, e.2.body.Steady

/-! ## Evaluation -/

namespace Environment

omit [Ord N] in
theorem steady_collect {f : N → Reading N (List N)} (hf : ∀ x, Steady (f x)) (xs : List N) :
    Steady (collect f xs) :=
  inherited_collect inherited_steady hf xs

omit [DecidableEq N] [Ord N] in
theorem select_sublist {holds : Focus N → Reading N Bool} (hh : ∀ focus, Steady (holds focus))
    (size position : Nat) (xs : List N) :
    Yields (select holds size position xs) fun ys => ys.Sublist xs := by
  induction xs generalizing position with
  | nil => exact .pure (.refl [])
  | cons x xs ih =>
    refine .after (hh _) fun keep => (ih (position + 1)).bind fun ys hys => .pure ?_
    cases keep with
    | true => exact hys.cons_cons x
    | false => exact hys.cons x

variable {env : Environment N}

theorem steady_candidates (axis : Axis) (test : NodeTest) (isLast : Bool) (x : N) :
    Yields (env.candidates axis test isLast x)
      fun found => found = (env.document.along x axis).filter (env.document.passes axis test) := by
  unfold candidates
  cases isLast with
  | true =>
    simp only [if_true]
    split
    · exact .after (.note _) fun _ => .after (.note _) fun _ => .pure rfl
    · exact .after (.note _) fun _ => .pure rfl
  | false => exact .pure rfl

theorem evalPredicates_sublist {ps : List Expr}
    (hps : ∀ p ∈ ps, ∀ focus, Steady (env.eval p focus)) (xs : List N) :
    Yields (env.evalPredicates ps xs) fun ys => ys.Sublist xs := by
  induction ps generalizing xs with
  | nil =>
    simp only [evalPredicates]
    exact .pure (.refl xs)
  | cons p ps ih =>
    simp only [evalPredicates]
    have hholds (focus : Focus N) :
        Steady (do pure (admits focus.position (← env.eval p focus))) :=
      .after (hps p List.mem_cons_self focus) fun _ => .pure trivial
    refine (select_sublist hholds _ _ xs).bind fun ys hys => ?_
    exact (ih (fun q hq => hps q (List.mem_cons_of_mem p hq)) ys).imp fun _ hzs => hzs.trans hys

theorem steady_evalAll {es : List Expr} (hes : ∀ e ∈ es, ∀ focus, Steady (env.eval e focus))
    (focus : Focus N) : Steady (env.evalAll es focus) :=
  inherited_evalAll inherited_steady hes focus

/-- A conditional gives what one of its branches gives. -/
theorem evalChoice_yields {P : Value N → Prop} {es : List Expr}
    (hsteady : ∀ e ∈ es, ∀ focus, Steady (env.eval e focus)) (focus : Focus N)
    (hes : ∀ e ∈ es, Yields (env.eval e focus) P) : Yields (env.evalChoice es focus) P := by
  match es with
  | [condition, yes, no] =>
    simp only [evalChoice]
    refine .after (hsteady condition (by simp) focus) fun v => ?_
    cases v.toBool with
    | true => exact hes yes (by simp)
    | false => exact hes no (by simp)
  | [] | [_] | [_, _] | _ :: _ :: _ :: _ :: _ =>
    simp only [evalChoice]
    exact .fail _

theorem binary_isAtom {op : Operator} {l r : Expr} (hl : ∀ focus, Steady (env.eval l focus))
    (hr : ∀ focus, Steady (env.eval r focus)) (focus : Focus N) :
    Yields (env.eval (.binary op l r) focus) Value.IsAtom := by
  cases op with
  | or =>
    simp only [eval]
    refine .after (hl focus) fun v => ?_
    cases v.toBool with
    | true => exact .pure trivial
    | false => exact .after (hr focus) fun _ => .pure trivial
  | and =>
    simp only [eval]
    refine .after (hl focus) fun v => ?_
    cases v.toBool with
    | true => exact .after (hr focus) fun _ => .pure trivial
    | false => exact .pure trivial
  | add | sub | mul | div | mod | eq | ne | lt | le | gt | ge =>
    simp only [eval]
    exact .after (hl focus) fun _ => .after (hr focus) fun _ => .pure trivial

theorem steady_evalSteps {steps : List (Step Expr)}
    (hsteps : ∀ s ∈ steps, ∀ p ∈ s.predicates, ∀ focus, Steady (env.eval p focus)) (xs : List N) :
    Steady (env.evalSteps steps xs) :=
  inherited_evalSteps inherited_steady hsteps xs

/-- Evaluation is steady where all functions are. -/
theorem steady_eval (hlibrary : env.library.Steady) (e : Expr) (focus : Focus N) :
    Steady (env.eval e focus) :=
  inherited_eval inherited_steady hlibrary e focus

theorem steady_eval_all (hlibrary : env.library.Steady) (es : List Expr) :
    ∀ e ∈ es, ∀ focus, Steady (env.eval e focus) :=
  fun e _ => steady_eval hlibrary e

theorem steady_eval_steps (hlibrary : env.library.Steady) (steps : List (Step Expr)) :
    ∀ s ∈ steps, ∀ p ∈ s.predicates, ∀ focus, Steady (env.eval p focus) :=
  fun _ _ p _ => steady_eval hlibrary p

end Environment

end ReactiveForm
