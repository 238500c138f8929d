import ReactiveForm.Eval
import ReactiveForm.Function.Builtin
import ReactiveForm.Proofs.Eval.Echo

/-!
# What all evaluations have in common

Evaluations are put together from computations that give a value, fail, or enter nodes into the log,
one after the other. A property that these have and that is handed on from one computation and what
follows it to the whole holds of every evaluation, if it holds of the functions that are called.
-/

set_option autoImplicit false

namespace ReactiveForm

namespace Reading

variable {N α β : Type}

/-- The result where nobody asks for the reads. -/
def value (m : Reading N α) : Except EvalError α := (m.run none).1

theorem value_ofExcept (v : Except EvalError α) : (Reading.ofExcept v : Reading N α).value = v := by
  cases v <;> rfl

/-- A property of computations that is handed on from the parts to the whole. What follows need only
be looked at for the value that comes before it. -/
structure Inherited [DecidableEq N] (C : (α : Type) → Reading N α → Prop) : Prop where
  pure : ∀ {α : Type} (a : α), C α (Pure.pure a)
  fail : ∀ {α : Type} (e : EvalError), C α (Reading.fail e)
  note : ∀ xs : List N, C Unit (Reading.note xs)
  bind : ∀ {α β : Type} {m : Reading N α} {f : α → Reading N β}, C α m →
    (∀ a, m.value = .ok a → C β (f a)) → C β (m >>= f)

namespace Inherited

variable [DecidableEq N] {C : (α : Type) → Reading N α → Prop} (h : Inherited C)

include h

theorem after {m : Reading N α} {f : α → Reading N β} (hm : C α m) (hf : ∀ a, C β (f a)) :
    C β (m >>= f) :=
  h.bind hm fun a _ => hf a

theorem ofExcept (v : Except EvalError α) : C α (Reading.ofExcept v) := by
  cases v with
  | error e => exact h.fail e
  | ok a => exact h.pure a

theorem mapM {f : α → Reading N β} (xs : List α) (hf : ∀ x, C β (f x)) :
    C (List β) (xs.mapM f) := by
  induction xs with
  | nil =>
    rw [List.mapM_nil]
    exact h.pure []
  | cons x xs ih =>
    rw [List.mapM_cons]
    exact h.after (hf x) fun _ => h.after ih fun _ => h.pure _

end Inherited

end Reading

open Reading (Inherited)

variable {N : Type} [DecidableEq N] [Ord N] {C : (α : Type) → Reading N α → Prop}

theorem Library.mem_of_resolve {l : Library N} {name : String} {count : Nat} {f : Function N}
    (h : l.resolve name count = .ok f) : (name, f) ∈ l.entries := by
  unfold resolve find? at h
  cases hl : l.entries.lookup name with
  | none => simp [hl] at h
  | some g =>
    simp only [hl] at h
    split at h
    · obtain rfl : g = f := Except.ok.inj h
      obtain ⟨before, after, hsplit, _⟩ := List.lookup_eq_some_iff.mp hl
      rw [hsplit]
      simp
    · exact nomatch h

/-- The function has the property, whatever it is called with. -/
def Body.Always (C : (α : Type) → Reading N α → Prop) (body : Body N) : Prop :=
  ∀ c args, C (Value N) (body c args)

/-- All functions of the library have the property. -/
def Library.Always (C : (α : Type) → Reading N α → Prop) (l : Library N) : Prop :=
  ∀ e ∈ l.entries, e.2.body.Always C

namespace Reading.Inherited

variable (h : Inherited C)

include h

/-! ## Calls -/

section

variable (c : Call N)

theorem textOf (x : N) : C String (c.textOf x) :=
  h.after (h.note [x]) fun _ => h.pure _

theorem valueText (v : Value N) : C String (c.valueText v) := by
  match v with
  | .nodes [] => exact h.pure _
  | .nodes (x :: _) => exact h.textOf c x
  | .atom a => exact h.pure _

theorem valueNumber (v : Value N) : C Float (c.valueNumber v) := by
  cases v with
  | atom a => exact h.pure _
  | nodes xs => exact h.after (h.valueText c (.nodes xs)) fun _ => h.pure _

theorem convert (v : Value N) (type : Option ValueType) : C (Value N) (c.convert v type) := by
  match type with
  | none => exact h.pure _
  | some .string => exact h.after (h.valueText c v) fun _ => h.pure _
  | some .number => exact h.after (h.valueNumber c v) fun _ => h.pure _
  | some .boolean => exact h.ofExcept (v.coerce c.document.toHostTree .boolean)
  | some .nodeSet => exact h.ofExcept (v.coerce c.document.toHostTree .nodeSet)

theorem convertAll (parameters : List (Option ValueType)) (args : List (Value N)) :
    C (List (Value N)) (c.convertAll parameters args) := by
  induction args generalizing parameters with
  | nil =>
    simp only [Call.convertAll]
    exact h.pure _
  | cons v vs ih =>
    simp only [Call.convertAll]
    exact h.after (h.convert c v _) fun _ => h.after (ih _) fun _ => h.pure _

theorem texts (v : Value N) : C (List String) (c.texts v) := by
  cases v with
  | atom a => exact h.pure _
  | nodes xs => exact h.mapM xs (h.textOf c)

theorem allTexts (vs : List (Value N)) : C (List String) (c.allTexts vs) := by
  induction vs with
  | nil => exact h.pure _
  | cons v vs ih => exact h.after (h.texts c v) fun _ => h.after ih fun _ => h.pure _

theorem numbers (v : Value N) : C (List Float) (c.numbers v) := by
  cases v with
  | atom a => exact h.pure _
  | nodes xs => exact h.after (h.mapM xs (h.textOf c)) fun _ => h.pure _

theorem allNumbers (vs : List (Value N)) : C (List Float) (c.allNumbers vs) := by
  induction vs with
  | nil => exact h.pure _
  | cons v vs ih => exact h.after (h.numbers c v) fun _ => h.after ih fun _ => h.pure _

theorem apply {f : Function N} (hf : f.body.Always C) (args : List (Value N)) :
    C (Value N) (f.apply c args) := by
  unfold Function.apply
  refine h.after (h.convertAll c _ _) fun vs => h.after (hf c vs) fun v => ?_
  split
  · exact h.pure v
  · exact h.ofExcept _

end

end Reading.Inherited

/-! ## The built-in functions -/

namespace Builtin

/-- The built-in functions, one by one where they read nodes or are shown some. -/
inductive Known : Body N → Prop where
  /-- A function that makes an atom of what it is shown. -/
  | plain (f : Call N → List (Value N) → Atom) : Known fun c args => pure (.atom (f c args))
  | position : Known position
  | count : Known count
  | localName : Known localName
  | name : Known name
  | current : Known current
  | string : Known string
  | stringLength : Known stringLength
  | normalizeSpace : Known normalizeSpace
  | join : Known join
  | regex : Known regex
  | number : Known number
  | sum : Known sum
  | min : Known min
  | max : Known max

/-- An entry of the table. The conditional is evaluated by a rule of its own. -/
inductive Listed : String × Function N → Prop where
  | conditional : Listed (entry "if" 3 (some 3) [any] choose)
  | function {name : String} {least : Nat} {most : Option Nat}
      {parameters : List (Option ValueType)} {body : Body N} :
    Known body → Listed (entry name least most parameters body)

theorem listed_plain (name : String) (least : Nat) (most : Option Nat)
    (parameters : List (Option ValueType)) (f : Call N → List (Value N) → Atom) :
    Listed (entry name least most parameters fun c args => pure (.atom (f c args))) :=
  .function (.plain f)

theorem listed_conditions : ∀ e ∈ (conditions : List (String × Function N)), Listed e := by
  simp only [conditions, List.forall_mem_cons]
  refine ⟨?_, ?_, ?_, ?_, ?_, .conditional, List.forall_mem_nil _⟩
  all_goals exact listed_plain ..

theorem listed_nodeFunctions : ∀ e ∈ (nodeFunctions : List (String × Function N)), Listed e := by
  simp only [nodeFunctions, List.forall_mem_cons]
  exact ⟨listed_plain .., .function .position, .function .count, .function .localName,
    .function .name, .function .current, List.forall_mem_nil _⟩

theorem listed_textFunctions : ∀ e ∈ (textFunctions : List (String × Function N)), Listed e := by
  simp only [textFunctions, List.forall_mem_cons]
  refine ⟨.function .string, ?_, ?_, ?_, ?_, ?_, ?_, ?_, .function .stringLength,
    .function .normalizeSpace, ?_, .function .join, ?_, .function .regex, List.forall_mem_nil _⟩
  all_goals exact listed_plain ..

theorem listed_numberFunctions :
    ∀ e ∈ (numberFunctions : List (String × Function N)), Listed e := by
  simp only [numberFunctions, List.forall_mem_cons]
  refine ⟨.function .number, .function .sum, ?_, ?_, ?_, ?_, ?_, .function .min, .function .max,
    List.forall_mem_nil _⟩
  all_goals exact listed_plain ..

theorem listed_mathFunctions : ∀ e ∈ (mathFunctions : List (String × Function N)), Listed e := by
  simp only [mathFunctions, List.forall_mem_cons]
  refine ⟨?_, ?_, ?_, ?_, ?_, ?_, ?_, ?_, ?_, ?_, ?_, ?_, ?_, ?_, List.forall_mem_nil _⟩
  all_goals exact listed_plain ..

theorem listed_selectionFunctions :
    ∀ e ∈ (selectionFunctions : List (String × Function N)), Listed e := by
  simp only [selectionFunctions, List.forall_mem_cons]
  refine ⟨?_, ?_, ?_, List.forall_mem_nil _⟩
  all_goals exact listed_plain ..

theorem listed_clockFunctions :
    ∀ e ∈ (clockFunctions : List (String × Function N)), Listed e := by
  simp only [clockFunctions, List.forall_mem_cons]
  exact ⟨listed_plain .., listed_plain .., List.forall_mem_nil _⟩

theorem listed_builtins : ∀ e ∈ (Library.builtins : Library N).entries, Listed e := by
  simp only [Library.builtins, List.forall_mem_append]
  exact ⟨⟨⟨⟨⟨⟨listed_conditions, listed_nodeFunctions⟩, listed_textFunctions⟩,
    listed_numberFunctions⟩, listed_mathFunctions⟩, listed_selectionFunctions⟩,
    listed_clockFunctions⟩

end Builtin

namespace Reading.Inherited

variable (h : Inherited C)

include h

theorem subject (c : Call N) (args : List (Value N)) :
    C (Option N) (Builtin.subject c args) := by
  match args with
  | [] => exact h.pure _
  | _ :: _ => exact h.after (h.ofExcept _) fun _ => h.pure _

theorem textOrContext (c : Call N) (args : List (Value N)) :
    C String (Builtin.textOrContext c args) := by
  match args with
  | [] => exact h.textOf c c.node
  | _ :: _ => exact h.pure _

theorem known {body : Body N} (hbody : Builtin.Known body) : body.Always C := by
  intro c args
  -- one case for each kind of body, put together from the rules of `Inherited`
  cases hbody with
  | plain f => exact h.pure _
  | position =>
    match args with
    | [] => exact h.pure _
    | v :: _ =>
      refine h.after (h.ofExcept _) fun xs => ?_
      match xs with
      | [] => exact h.pure _
      | _ :: _ => exact h.pure _
  | count => exact h.after (h.ofExcept _) fun _ => h.pure _
  | localName => exact h.after (h.subject c args) fun _ => h.pure _
  | name => exact h.after (h.subject c args) fun _ => h.pure _
  | current => exact h.after (h.note [c.current]) fun _ => h.pure _
  | string =>
    match args with
    | [] => exact h.after (h.textOf c c.node) fun _ => h.pure _
    | v :: _ => exact h.after (h.valueText c v) fun _ => h.pure _
  | stringLength => exact h.after (h.textOrContext c args) fun _ => h.pure _
  | normalizeSpace => exact h.after (h.textOrContext c args) fun _ => h.pure _
  | join =>
    match args with
    | [] => exact h.pure _
    | v :: vs =>
      exact h.after (h.valueText c v) fun _ => h.after (h.allTexts c vs) fun _ => h.pure _
  | regex =>
    unfold Builtin.regex
    split
    · split
      · exact h.pure _
      · exact h.fail _
    · exact h.fail _
  | number =>
    match args with
    | [] => exact h.after (h.textOf c c.node) fun _ => h.pure _
    | v :: _ => exact h.after (h.valueNumber c v) fun _ => h.pure _
  | sum =>
    exact h.after (h.ofExcept _) fun xs => h.after (h.numbers c (.nodes xs)) fun _ => h.pure _
  | min => exact h.after (h.allNumbers c args) fun _ => h.pure _
  | max => exact h.after (h.allNumbers c args) fun _ => h.pure _

theorem builtins : (Library.builtins : Library N).Always C := by
  intro e he
  cases Builtin.listed_builtins e he with
  | conditional => exact fun _ _ => h.pure _
  | function hbody => exact h.known hbody

end Reading.Inherited

/-! ## Evaluation -/

namespace Environment

variable {env : Environment N} (h : Inherited C)

include h

omit [Ord N] in
theorem inherited_collect {f : N → Reading N (List N)} (hf : ∀ x, C (List N) (f x))
    (xs : List N) : C (List N) (collect f xs) := by
  induction xs with
  | nil => exact h.pure _
  | cons x xs ih => exact h.after (hf x) fun _ => h.after ih fun _ => h.pure _

omit [Ord N] in
theorem inherited_select {holds : Focus N → Reading N Bool} (hh : ∀ focus, C Bool (holds focus))
    (size position : Nat) (xs : List N) : C (List N) (select holds size position xs) := by
  induction xs generalizing position with
  | nil => exact h.pure _
  | cons x xs ih => exact h.after (hh _) fun _ => h.after (ih _) fun _ => h.pure _

theorem inherited_candidates (axis : Axis) (test : NodeTest) (isLast : Bool) (x : N) :
    C (List N) (env.candidates axis test isLast x) := by
  unfold candidates
  cases isLast with
  | true =>
    simp only [if_true]
    split
    · exact h.after (h.note _) fun _ => h.after (h.note _) fun _ => h.pure _
    · exact h.after (h.note _) fun _ => h.pure _
  | false => exact h.pure _

theorem inherited_evalPredicates {ps : List Expr}
    (hps : ∀ p ∈ ps, ∀ focus, C (Value N) (env.eval p focus)) (xs : List N) :
    C (List N) (env.evalPredicates ps xs) := by
  induction ps generalizing xs with
  | nil =>
    simp only [evalPredicates]
    exact h.pure xs
  | cons p ps ih =>
    simp only [evalPredicates]
    have hholds (focus : Focus N) : C Bool (do pure (admits focus.position (← env.eval p focus))) :=
      h.after (hps p List.mem_cons_self focus) fun _ => h.pure _
    exact h.after (inherited_select h hholds _ _ xs) fun ys =>
      ih (fun q hq => hps q (List.mem_cons_of_mem p hq)) ys

theorem inherited_evalAll {es : List Expr} (hes : ∀ e ∈ es, ∀ focus, C (Value N) (env.eval e focus))
    (focus : Focus N) : C (List (Value N)) (env.evalAll es focus) := by
  induction es with
  | nil =>
    simp only [evalAll]
    exact h.pure _
  | cons e es ih =>
    simp only [evalAll]
    exact h.after (hes e List.mem_cons_self focus) fun _ =>
      h.after (ih fun d hd => hes d (List.mem_cons_of_mem e hd)) fun _ => h.pure _

theorem inherited_evalChoice {es : List Expr}
    (hes : ∀ e ∈ es, ∀ focus, C (Value N) (env.eval e focus)) (focus : Focus N) :
    C (Value N) (env.evalChoice es focus) := by
  match es with
  | [condition, yes, no] =>
    simp only [evalChoice]
    refine h.after (hes condition (by simp) focus) fun v => ?_
    cases v.toBool with
    | true => exact hes yes (by simp) focus
    | false => exact hes no (by simp) focus
  | [] | [_] | [_, _] | _ :: _ :: _ :: _ :: _ =>
    simp only [evalChoice]
    exact h.fail _

theorem inherited_binary {op : Operator} {l r : Expr}
    (hl : ∀ focus, C (Value N) (env.eval l focus)) (hr : ∀ focus, C (Value N) (env.eval r focus))
    (focus : Focus N) : C (Value N) (env.eval (.binary op l r) focus) := by
  cases op with
  | or =>
    simp only [eval]
    refine h.after (hl focus) fun v => ?_
    cases v.toBool with
    | true => exact h.pure _
    | false => exact h.after (hr focus) fun _ => h.pure _
  | and =>
    simp only [eval]
    refine h.after (hl focus) fun v => ?_
    cases v.toBool with
    | true => exact h.after (hr focus) fun _ => h.pure _
    | false => exact h.pure _
  | add | sub | mul | div | mod | eq | ne | lt | le | gt | ge =>
    simp only [eval]
    exact h.after (hl focus) fun _ => h.after (hr focus) fun _ => h.pure _

theorem inherited_evalStep {s : Step Expr}
    (hps : ∀ p ∈ s.predicates, ∀ focus, C (Value N) (env.eval p focus)) (isLast : Bool) (x : N) :
    C (List N) (env.evalStep s isLast x) := by
  obtain ⟨axis, test, predicates⟩ := s
  simp only [evalStep]
  exact h.after (inherited_candidates h axis test _ x) fun found =>
    inherited_evalPredicates h hps found

theorem inherited_evalSteps {steps : List (Step Expr)}
    (hsteps : ∀ s ∈ steps, ∀ p ∈ s.predicates, ∀ focus, C (Value N) (env.eval p focus))
    (xs : List N) : C (List N) (env.evalSteps steps xs) := by
  induction steps generalizing xs with
  | nil =>
    simp only [evalSteps]
    exact h.pure _
  | cons s steps ih =>
    simp only [evalSteps]
    refine h.after (inherited_collect h (fun x => ?_) xs) fun found =>
      ih (fun t ht => hsteps t (List.mem_cons_of_mem s ht)) _
    exact inherited_evalStep h (hsteps s List.mem_cons_self) _ x

theorem inherited_call (hlibrary : env.library.Always C) {name : String} {args : List Expr}
    (hargs : ∀ e ∈ args, ∀ focus, C (Value N) (env.eval e focus)) (focus : Focus N) :
    C (Value N) (env.eval (.call name args) focus) := by
  simp only [eval]
  refine h.bind (h.ofExcept _) fun f hf => ?_
  rw [Reading.value_ofExcept] at hf
  split
  · exact inherited_evalChoice h hargs focus
  · exact h.after (inherited_evalAll h hargs focus) fun vs =>
      h.apply _ (hlibrary _ (Library.mem_of_resolve hf)) vs

omit h

mutual

/-- Evaluation has the property where all functions have it. -/
theorem inherited_eval (h : Inherited C) (hlibrary : env.library.Always C) :
    (e : Expr) → ∀ focus, C (Value N) (env.eval e focus)
  | .text _ => fun focus => by
    simp only [eval]
    exact h.pure _
  | .number _ => fun focus => by
    simp only [eval]
    exact h.pure _
  | .variable name => fun focus => by
    simp only [eval]
    split
    · exact h.pure _
    · exact h.fail _
  | .call _ args => inherited_call h hlibrary (inherited_eval_all h hlibrary args)
  | .binary _ l r => inherited_binary h (inherited_eval h hlibrary l) (inherited_eval h hlibrary r)
  | .negate e => fun focus => by
    simp only [eval]
    exact h.after (inherited_eval h hlibrary e focus) fun _ => h.pure _
  | .union l r => fun focus => by
    simp only [eval]
    exact h.after (inherited_eval h hlibrary l focus) fun _ => h.after (h.ofExcept _) fun _ =>
      h.after (inherited_eval h hlibrary r focus) fun _ => h.after (h.ofExcept _) fun _ => h.pure _
  | .filter base ps => fun focus => by
    have hps := inherited_eval_all h hlibrary ps
    simp only [eval]
    exact h.after (inherited_eval h hlibrary base focus) fun _ => h.after (h.ofExcept _) fun xs =>
      h.after (inherited_evalPredicates h hps xs) fun _ => h.pure _
  | .path start steps => fun focus => by
    have hsteps := inherited_eval_steps h hlibrary steps
    simp only [eval]
    refine h.after (inherited_evalStart h hlibrary start focus) fun xs => ?_
    have hfound := h.after (inherited_evalSteps h hsteps xs) fun ys => h.pure (Value.nodes ys)
    cases steps.isEmpty with
    | true => exact h.after (h.note xs) fun _ => hfound
    | false => exact hfound

theorem inherited_eval_all (h : Inherited C) (hlibrary : env.library.Always C) :
    (es : List Expr) → ∀ e ∈ es, ∀ focus, C (Value N) (env.eval e focus)
  | [] => fun _ he => absurd he List.not_mem_nil
  | e :: es =>
    List.forall_mem_cons.mpr ⟨inherited_eval h hlibrary e, inherited_eval_all h hlibrary es⟩

theorem inherited_evalStart (h : Inherited C) (hlibrary : env.library.Always C) :
    (start : Start Expr) → ∀ focus, C (List N) (env.evalStart start focus)
  | .root => fun focus => by
    simp only [evalStart]
    exact h.pure _
  | .context => fun focus => by
    simp only [evalStart]
    exact h.pure _
  | .nodes base => fun focus => by
    simp only [evalStart]
    exact h.after (inherited_eval h hlibrary base focus) fun _ => h.ofExcept _

theorem inherited_eval_steps (h : Inherited C) (hlibrary : env.library.Always C) :
    (steps : List (Step Expr)) →
      ∀ s ∈ steps, ∀ p ∈ s.predicates, ∀ focus, C (Value N) (env.eval p focus)
  | [] => fun _ hs => absurd hs List.not_mem_nil
  | ⟨_, _, predicates⟩ :: rest =>
    List.forall_mem_cons.mpr
      ⟨inherited_eval_all h hlibrary predicates, inherited_eval_steps h hlibrary rest⟩

end

end Environment

end ReactiveForm
