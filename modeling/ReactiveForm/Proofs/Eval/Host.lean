import Mathlib.Data.List.Forall2
import ReactiveForm.Proofs.Eval.Inherited
import ReactiveForm.Proofs.Eval.Order
import ReactiveForm.Proofs.Function.Registration

/-!
# Calls of functions of the host

A function of the host runs on as many values as it declares, each of the type declared for its
place, or it does not run; and a call of it that succeeds has a value of the declared type. What
the function would make of other values can be seen from no expression.
-/

set_option autoImplicit false

namespace ReactiveForm

namespace Reading

variable {N α β : Type}

/-- Every value that the computation may come to has the property, whatever has been read before. -/
def Ensures (m : Reading N α) (P : α → Prop) : Prop := ∀ s, ∀ a, (m.run s).1 = .ok a → P a

variable {m : Reading N α} {P : α → Prop}

theorem ensures_pure {a : α} (h : P a) : Ensures (pure a : Reading N α) P := by
  rintro _ b ⟨⟩
  exact h

theorem ensures_fail (e : EvalError) : Ensures (Reading.fail e : Reading N α) P :=
  fun _ _ h => nomatch h

theorem ensures_ofExcept {v : Except EvalError α} (h : ∀ a, v = .ok a → P a) :
    Ensures (Reading.ofExcept v : Reading N α) P := by
  cases v with
  | error e => exact ensures_fail e
  | ok a => exact ensures_pure (h a rfl)

theorem Ensures.bind {f : α → Reading N β} {Q : β → Prop} (hm : Ensures m P)
    (hf : ∀ a, P a → Ensures (f a) Q) : Ensures (m >>= f) Q := by
  intro s b h
  cases hrun : m.run s with
  | mk out s' =>
    cases out with
    | error e =>
      rw [run_bind_error hrun] at h
      exact nomatch h
    | ok a =>
      rw [run_bind_ok hrun] at h
      exact hf a (hm s a (by rw [hrun])) s' b h

theorem ensures_after {f : α → Reading N β} {Q : β → Prop} (hf : ∀ a, Ensures (f a) Q) :
    Ensures (m >>= f) Q :=
  Ensures.bind (P := fun _ => True) (fun _ _ _ => trivial) fun a _ => hf a

theorem Ensures.bind_congr {f g : α → Reading N β} (hm : Ensures m P) (h : ∀ a, P a → f a = g a) :
    m >>= f = m >>= g := by
  apply ExceptT.ext
  funext s
  cases hrun : m.run s with
  | mk out s' =>
    cases out with
    | error e => rw [run_bind_error hrun, run_bind_error hrun]
    | ok a => rw [run_bind_ok hrun, run_bind_ok hrun, h a (hm s a (by rw [hrun]))]

end Reading

open Reading (Ensures ensures_pure ensures_fail ensures_ofExcept ensures_after)

variable {N : Type} [DecidableEq N] [Ord N]

omit [DecidableEq N] [Ord N] in
theorem Value.type_of_coerce {t : HostTree N} {v w : Value N} {type : ValueType}
    (h : v.coerce t type = .ok w) : w.type = type := by
  cases type with
  | string | number | boolean =>
    obtain rfl := Except.ok.inj h
    rfl
  | nodeSet =>
    cases v with
    | atom a => exact nomatch h
    | nodes xs =>
      obtain rfl := Except.ok.inj h
      rfl

theorem Function.accepts_host (parameters : List ValueType) (result : ValueType) (body : Body N)
    (count : Nat) :
    (Function.host parameters result body).accepts count = decide (count = parameters.length) := by
  have hbounds : (Function.host parameters result body).accepts count
      = (decide (parameters.length ≤ count) && decide (count ≤ parameters.length)) := rfl
  rw [hbounds, ← Bool.decide_and, decide_eq_decide, Nat.le_antisymm_iff, and_comm]

namespace Call

variable (c : Call N)

theorem ensures_convert (v : Value N) (type : ValueType) :
    Ensures (c.convert v (some type)) fun w => w.type = type := by
  cases type with
  | string => exact ensures_after fun _ => ensures_pure rfl
  | number => exact ensures_after fun _ => ensures_pure rfl
  | boolean => exact ensures_ofExcept fun _ h => Value.type_of_coerce h
  | nodeSet => exact ensures_ofExcept fun _ h => Value.type_of_coerce h

/-- As many arguments as there are parameters are converted to the types of the parameters. -/
theorem ensures_convertAll {parameters : List ValueType} {args : List (Value N)}
    (h : args.length = parameters.length) :
    Ensures (c.convertAll (parameters.map some) args) fun vs => vs.map Value.type = parameters := by
  induction args generalizing parameters with
  | nil =>
    obtain rfl := List.length_eq_zero_iff.mp h.symm
    simp only [convertAll]
    exact ensures_pure rfl
  | cons v vs ih =>
    obtain ⟨type, types, rfl⟩ := List.exists_cons_of_length_eq_add_one h.symm
    have hlength : vs.length = types.length := by simpa using h
    let further := if ((type :: types).map some).length ≤ 1 then (type :: types).map some
      else types.map some
    have hrest : Ensures (c.convertAll further vs) fun ws => ws.map Value.type = types := by
      unfold further
      split
      next hlast =>
        -- the type that would repeat has no argument left
        obtain rfl : types = [] := by simpa using hlast
        obtain rfl := List.length_eq_zero_iff.mp hlength
        simp only [convertAll]
        exact ensures_pure rfl
      next => exact ih hlength
    simp only [convertAll]
    refine (c.ensures_convert v type).bind fun w hw => hrest.bind fun ws hws => ensures_pure ?_
    rw [List.map_cons, hw, hws]

end Call

namespace Environment

variable (env : Environment N)

theorem ensures_evalAll (args : List Expr) (focus : Focus N) :
    Ensures (env.evalAll args focus) fun vs => vs.length = args.length := by
  induction args with
  | nil =>
    simp only [evalAll]
    exact ensures_pure rfl
  | cons e es ih =>
    simp only [evalAll]
    refine ensures_after fun v => ih.bind fun vs hvs => ensures_pure ?_
    rw [List.length_cons, List.length_cons, hvs]

/-- The values of the arguments of a call, converted to the types of the parameters. -/
def arguments (parameters : List ValueType) (args : List Expr) (focus : Focus N) :
    Reading N (List (Value N)) := do
  let values ← env.evalAll args focus
  (env.call focus).convertAll (parameters.map some) values

theorem ensures_arguments {parameters : List ValueType} {args : List Expr}
    (h : args.length = parameters.length) (focus : Focus N) :
    Ensures (env.arguments parameters args focus) fun vs => vs.map Value.type = parameters :=
  (env.ensures_evalAll args focus).bind fun _ hvs =>
    (env.call focus).ensures_convertAll (hvs.trans h)

/-- The function is run on the converted arguments, and what it comes to is converted. -/
def runHost (parameters : List ValueType) (result : ValueType) (body : Body N) (args : List Expr)
    (focus : Focus N) : Reading N (Value N) := do
  let value ← body (env.call focus) (← env.arguments parameters args focus)
  Reading.ofExcept (value.coerce env.document.toHostTree result)

/-- How a call of a function of the host goes on: with another number of arguments than declared it
fails; otherwise the function runs on the converted arguments, and what it comes to is converted. -/
structure CallsHost (name : String) (parameters : List ValueType) (result : ValueType)
    (body : Body N) (args : List Expr) (focus : Focus N) : Prop where
  refuses : args.length ≠ parameters.length →
    env.eval (.call name args) focus = Reading.fail (.wrongArity name args.length)
  runs : args.length = parameters.length →
    env.eval (.call name args) focus = env.runHost parameters result body args focus
  /-- The function is only shown values of the types that it declares. -/
  shows : args.length = parameters.length →
    Ensures (env.arguments parameters args focus) fun vs => vs.map Value.type = parameters
  /-- A call that succeeds has a value of the type that the function declares. -/
  ensures : Ensures (env.eval (.call name args) focus) fun v => v.type = result

variable {env}

theorem callsHost {name : String} {parameters : List ValueType} {result : ValueType}
    {body : Body N} (h : env.library.find? name = some (.host parameters result body))
    (args : List Expr) (focus : Focus N) :
    env.CallsHost name parameters result body args focus := by
  -- a host function takes exactly as many arguments as it has parameters
  have hresolve : env.library.resolve name args.length
      = if args.length = parameters.length then .ok (.host parameters result body)
        else .error (.wrongArity name args.length) := by
    rw [Library.resolve, h]
    simp only [Function.accepts_host, decide_eq_true_eq]
  have hrefuses (hlength : args.length ≠ parameters.length) :
      env.eval (.call name args) focus = Reading.fail (.wrongArity name args.length) := by
    rw [if_neg hlength] at hresolve
    simp only [eval, hresolve]
    rfl
  have hruns (hlength : args.length = parameters.length) :
      env.eval (.call name args) focus = env.runHost parameters result body args focus := by
    rw [if_pos hlength] at hresolve
    simp only [eval, hresolve, runHost, arguments, bind_assoc]
    rfl
  refine ⟨hrefuses, hruns, fun hlength => env.ensures_arguments hlength focus, ?_⟩
  by_cases hlength : args.length = parameters.length
  · rw [hruns hlength, runHost]
    exact ensures_after fun _ => ensures_after fun _ =>
      ensures_ofExcept fun _ => Value.type_of_coerce
  · rw [hrefuses hlength]
    exact ensures_fail _

end Environment

/-! ## What cannot be seen -/

/-- Two functions that differ at most in what they make of values of other types than declared. -/
inductive Function.Alike : Function N → Function N → Prop
  | refl (f : Function N) : Alike f f
  | host {parameters : List ValueType} {result : ValueType} {body body' : Body N}
      (h : ∀ c vs, vs.map Value.type = parameters → body c vs = body' c vs) :
    Alike (.host parameters result body) (.host parameters result body')

/-- Every name means alike functions, or none, in the two libraries. -/
def Library.Alike (l l' : Library N) : Prop :=
  ∀ name, Option.Rel Function.Alike (l.find? name) (l'.find? name)

namespace Environment

variable {env : Environment N} {l : Library N}

/-- The same circumstances, but for the library. -/
def withLibrary (env : Environment N) (l : Library N) : Environment N := { env with library := l }

theorem evalAll_withLibrary {args : List Expr}
    (h : ∀ e ∈ args, (env.withLibrary l).eval e = env.eval e) :
    (env.withLibrary l).evalAll args = env.evalAll args := by
  funext focus
  induction args with
  | nil => simp only [evalAll]
  | cons e es ih =>
    simp only [evalAll, h e List.mem_cons_self, ih fun d hd => h d (List.mem_cons_of_mem e hd)]

theorem evalChoice_withLibrary {args : List Expr}
    (h : ∀ e ∈ args, (env.withLibrary l).eval e = env.eval e) :
    (env.withLibrary l).evalChoice args = env.evalChoice args := by
  funext focus
  match args with
  | [condition, yes, no] =>
    simp only [evalChoice, h condition (by simp), h yes (by simp), h no (by simp)]
  | [] | [_] | [_, _] | _ :: _ :: _ :: _ :: _ => simp only [evalChoice]

theorem evalPredicates_withLibrary {ps : List Expr}
    (h : ∀ p ∈ ps, (env.withLibrary l).eval p = env.eval p) :
    (env.withLibrary l).evalPredicates ps = env.evalPredicates ps := by
  funext xs
  induction ps generalizing xs with
  | nil => simp only [evalPredicates]
  | cons p ps ih =>
    simp only [evalPredicates, h p List.mem_cons_self,
      ih fun q hq => h q (List.mem_cons_of_mem p hq)]

theorem evalSteps_withLibrary {steps : List (Step Expr)}
    (h : ∀ s ∈ steps, ∀ p ∈ s.predicates, (env.withLibrary l).eval p = env.eval p) :
    (env.withLibrary l).evalSteps steps = env.evalSteps steps := by
  funext xs
  induction steps generalizing xs with
  | nil => simp only [evalSteps]
  | cons s steps ih =>
    have hstep : (env.withLibrary l).evalStep s = env.evalStep s := by
      obtain ⟨axis, test, predicates⟩ := s
      funext isLast x
      simp only [evalStep, evalPredicates_withLibrary (h _ List.mem_cons_self)]
      rfl
    simp only [evalSteps, hstep, ih fun t ht => h t (List.mem_cons_of_mem s ht)]
    rfl

theorem runHost_withLibrary {args : List Expr}
    (hargs : ∀ e ∈ args, (env.withLibrary l).eval e = env.eval e) {parameters : List ValueType}
    (hlength : args.length = parameters.length) (result : ValueType) {body body' : Body N}
    (h : ∀ c vs, vs.map Value.type = parameters → body c vs = body' c vs) (focus : Focus N) :
    (env.withLibrary l).runHost parameters result body' args focus
      = env.runHost parameters result body args focus := by
  have harguments : (env.withLibrary l).arguments parameters args focus
      = env.arguments parameters args focus := by
    simp only [arguments, evalAll_withLibrary hargs]
    rfl
  unfold runHost
  rw [harguments]
  refine (env.ensures_arguments hlength focus).bind_congr fun vs hvs => ?_
  rw [h _ vs hvs]
  rfl

theorem call_withLibrary (h : env.library.Alike l) {args : List Expr}
    (hargs : ∀ e ∈ args, (env.withLibrary l).eval e = env.eval e) (name : String) :
    (env.withLibrary l).eval (.call name args) = env.eval (.call name args) := by
  funext focus
  have hname := h name
  have hsame (heq : l.find? name = env.library.find? name) :
      (env.withLibrary l).eval (.call name args) focus = env.eval (.call name args) focus := by
    have hresolve : (env.withLibrary l).library.resolve name args.length
        = env.library.resolve name args.length := by
      simp only [Library.resolve, withLibrary, heq]
    simp only [eval, hresolve, evalAll_withLibrary hargs, evalChoice_withLibrary hargs]
    rfl
  cases hold : env.library.find? name with
  | none =>
    rw [hold] at hname
    generalize hnew : l.find? name = new at hname
    cases hname
    exact hsame (hnew.trans hold.symm)
  | some f =>
    rw [hold] at hname
    generalize hnew : l.find? name = new at hname
    -- the functions found differ at most in the body of a host function
    obtain hf | _ := hname
    cases hf with
    | refl => exact hsame (hnew.trans hold.symm)
    | @host parameters result body body' hbody =>
      have hfirst := callsHost hold args focus
      have hsecond : (env.withLibrary l).CallsHost name parameters result body' args focus :=
        callsHost hnew args focus
      by_cases hlength : args.length = parameters.length
      · rw [hfirst.runs hlength, hsecond.runs hlength]
        exact runHost_withLibrary hargs hlength result hbody focus
      · rw [hfirst.refuses hlength, hsecond.refuses hlength]

mutual

/-- Evaluation cannot tell alike libraries from one another. -/
theorem eval_withLibrary (h : env.library.Alike l) :
    (e : Expr) → (env.withLibrary l).eval e = env.eval e
  | .text _ => by
    funext focus
    simp only [eval]
  | .number _ => by
    funext focus
    simp only [eval]
  | .variable name => by
    funext focus
    simp only [eval]
    rfl
  | .call name args => call_withLibrary h (eval_withLibrary_all h args) name
  | .binary op left right => by
    funext focus
    simp only [eval, eval_withLibrary h left, eval_withLibrary h right]
    rfl
  | .negate e => by
    funext focus
    simp only [eval, eval_withLibrary h e]
    rfl
  | .union left right => by
    funext focus
    simp only [eval, eval_withLibrary h left, eval_withLibrary h right]
    rfl
  | .filter base ps => by
    funext focus
    simp only [eval, eval_withLibrary h base,
      evalPredicates_withLibrary (eval_withLibrary_all h ps)]
  | .path start steps => by
    funext focus
    simp only [eval, evalStart_withLibrary h start,
      evalSteps_withLibrary (eval_withLibrary_steps h steps)]

theorem eval_withLibrary_all (h : env.library.Alike l) :
    (es : List Expr) → ∀ e ∈ es, (env.withLibrary l).eval e = env.eval e
  | [] => fun _ he => absurd he List.not_mem_nil
  | e :: es => List.forall_mem_cons.mpr ⟨eval_withLibrary h e, eval_withLibrary_all h es⟩

theorem evalStart_withLibrary (h : env.library.Alike l) :
    (start : Start Expr) → (env.withLibrary l).evalStart start = env.evalStart start
  | .root => by
    funext focus
    simp only [evalStart]
    rfl
  | .context => by
    funext focus
    simp only [evalStart]
  | .nodes base => by
    funext focus
    simp only [evalStart, eval_withLibrary h base]

theorem eval_withLibrary_steps (h : env.library.Alike l) :
    (steps : List (Step Expr)) →
      ∀ s ∈ steps, ∀ p ∈ s.predicates, (env.withLibrary l).eval p = env.eval p
  | [] => fun _ hs => absurd hs List.not_mem_nil
  | ⟨_, _, predicates⟩ :: rest =>
    List.forall_mem_cons.mpr
      ⟨eval_withLibrary_all h predicates, eval_withLibrary_steps h rest⟩

end

end Environment

/-! ## Libraries that grow -/

/-- The same request, but for what the function makes of values of other types than declared. -/
structure Registration.Alike (r r' : Registration N) : Prop where
  name : r'.name = r.name
  signature : r'.signature = r.signature
  body : ∀ parameters result, r.signature.types? = some (parameters, result) →
    ∀ c vs, vs.map Value.type = parameters → r.body c vs = r'.body c vs

theorem Registration.Alike.function? {r r' : Registration N} (h : r.Alike r') :
    Option.Rel Function.Alike r.function? r'.function? := by
  unfold Registration.function?
  rw [h.signature]
  cases htypes : r.signature.types? with
  | none => exact .none
  | some types =>
    obtain ⟨parameters, result⟩ := types
    exact .some (.host (h.body parameters result htypes))

namespace Library

variable {rs rs' : List (Registration N)}

theorem alike_findSome? (h : List.Forall₂ Registration.Alike rs rs') (name : String) :
    Option.Rel Function.Alike
      (rs.findSome? fun r => if r.name = name then r.function? else none)
      (rs'.findSome? fun r => if r.name = name then r.function? else none) := by
  induction h with
  | nil => exact .none
  | @cons r r' rs rs' hr _ ih =>
    rw [List.findSome?_cons, List.findSome?_cons, hr.name]
    by_cases hname : r.name = name
    · rw [if_pos hname, if_pos hname]
      have hfunction := hr.function?
      generalize r.function? = old, r'.function? = new at hfunction
      cases hfunction with
      | none => exact ih
      | some hf => exact .some hf
    · rw [if_neg hname, if_neg hname]
      exact ih

theorem alike_afterAll (l : Library N) (h : List.Forall₂ Registration.Alike rs rs') :
    (l.afterAll rs).Alike (l.afterAll rs') := by
  intro name
  rw [find?_afterAll, find?_afterAll]
  cases l.find? name with
  | none => exact alike_findSome? h name
  | some f => exact .some (.refl f)

theorem builtin_of_find?_builtins {name : String} {f : Function N}
    (h : (builtins : Library N).find? name = some f) : f.builtin = true := by
  obtain ⟨before, after, hsplit, _⟩ := List.lookup_eq_some_iff.mp h
  have hmem : (name, f) ∈ (builtins : Library N).entries := by
    rw [hsplit]
    exact List.mem_append_right _ List.mem_cons_self
  cases Builtin.listed_builtins _ hmem <;> rfl

/-- A function that is not built in has been asked for. -/
theorem exists_of_find?_afterAll {name : String} {f : Function N}
    (h : (builtins.afterAll rs).find? name = some f) (hhost : f.builtin = false) :
    ∃ r ∈ rs, r.name = name ∧ r.function? = some f := by
  rw [find?_afterAll] at h
  cases hold : (builtins : Library N).find? name with
  | some g =>
    rw [hold] at h
    obtain rfl := Option.some.inj h
    exact nomatch hhost.symm.trans (builtin_of_find?_builtins hold)
  | none =>
    rw [hold] at h
    obtain ⟨r, hr, hf⟩ := List.exists_of_findSome?_eq_some h
    split at hf
    next hname => exact ⟨r, hr, hname, hf⟩
    next => exact nomatch hf

end Library

namespace Environment

/-- However often functions are registered with the built-in ones, an attempt that fails leaves the
library as it is, and one that succeeds adds its own name and no other. A name means the built-in
function, or else the first one that could be had. A call of any other function than a built-in one
is a call of a function of the host as it has been declared. What such functions make of values
that are not of the declared number and types, no expression can show. -/
theorem library_grows_and_calls_host (env : Environment N) (rs : List (Registration N)) :
    let l := Library.builtins.afterAll rs
    (∀ r, l.Attempted r) ∧
    (∀ name, l.find? name = (Library.builtins.find? name).or
      (rs.findSome? fun r => if r.name = name then r.function? else none)) ∧
    (∀ name f, l.find? name = some f → f.builtin = false →
      ∃ r ∈ rs, r.name = name ∧ ∃ parameters result,
        r.signature.types? = some (parameters, result) ∧ f = .host parameters result r.body ∧
        ∀ args focus, (env.withLibrary l).CallsHost name parameters result r.body args focus) ∧
    ∀ rs', List.Forall₂ Registration.Alike rs rs' → ∀ e,
      (env.withLibrary (Library.builtins.afterAll rs')).evaluateTracked e
        = (env.withLibrary l).evaluateTracked e := by
  intro l
  refine ⟨l.attempted, Library.builtins.find?_afterAll rs, ?_, ?_⟩
  · intro name f hf hhost
    obtain ⟨r, hr, hname, hfunction⟩ := Library.exists_of_find?_afterAll hf hhost
    obtain ⟨⟨parameters, result⟩, htypes, rfl⟩ := Option.map_eq_some_iff.mp hfunction
    exact ⟨r, hr, hname, parameters, result, htypes, rfl, callsHost hf⟩
  · intro rs' h e
    -- bodies that give the same outcomes are not told apart by any expression
    have halike : (env.withLibrary l).library.Alike (Library.builtins.afterAll rs') :=
      Library.alike_afterAll _ h
    have heval : (env.withLibrary (Library.builtins.afterAll rs')).eval e
        = (env.withLibrary l).eval e := eval_withLibrary halike e
    rw [evaluateTracked, evaluateTracked, heval]
    rfl

end Environment

/-! ## Two implementations -/

namespace Registration

/-- A function of one number that gives its first argument back, or fails where there is none. -/
def same : Registration (Fin 5) where
  name := "same"
  signature := .tagged ["number"] "number"
  body
    | _, v :: _ => pure v
    | _, [] => Reading.fail (.failed "no argument")

/-- The same function, which would give numbers back and nothing else. -/
def sameNumber : Registration (Fin 5) where
  name := "same"
  signature := .tagged ["number"] "number"
  body
    | _, [.atom (.number x)] => pure (.number x)
    | _, _ => pure (.string "")

/-- Another request for the name, and one for a built-in name. -/
def others : List (Registration (Fin 5)) :=
  [{ same with signature := .typed [] .string }, { same with name := "concat" }]

theorem alike_same : same.Alike sameNumber where
  name := rfl
  signature := rfl
  body := by
    rintro _ _ ⟨⟩ c vs hvs
    match vs with
    | [.atom (.number x)] => rfl
    | [.atom (.string s)] | [.atom (.boolean b)] | [.nodes xs] => simp [Value.type] at hvs
    | [] | _ :: _ :: _ => simp at hvs

end Registration

open Registration in
/-- The later requests are in vain, and the first one counts: a call with two arguments fails, one
that succeeds has a number as its value, and the other implementation cannot be told apart. -/
theorem Environment.library_grows_and_calls_host_same :
    let l := Library.builtins.afterAll (same :: others)
    let env := Environment.sprig.withLibrary l
    (∀ r ∈ others, l.afterAttempt r = l) ∧
      env.eval (.call "same" [.text "1", .text "2"]) env.focus
        = Reading.fail (.wrongArity "same" 2) ∧
      Ensures (env.eval (.call "same" [.text "1"]) env.focus) (fun v => v.type = .number) ∧
      ∀ e, (Environment.sprig.withLibrary
          (Library.builtins.afterAll (sameNumber :: others))).evaluateTracked e
        = env.evaluateTracked e := by
  intro l env
  obtain ⟨hattempted, hmeans, hcalls, hunseen⟩ :=
    library_grows_and_calls_host Environment.sprig (same :: others)
  have hnew : (Library.builtins (N := Fin 5)).find? "same" = none :=
    Option.isNone_iff_eq_none.mp (by decide +kernel)
  have hsame : l.find? "same" = same.function? := by
    rw [hmeans, hnew]
    rfl
  have htaken : ∀ r ∈ others, (l.find? r.name).isSome := by
    have hconcat : ((Library.builtins (N := Fin 5)).find? "concat").isSome := by decide +kernel
    refine List.forall_mem_cons.mpr ⟨hsame ▸ rfl, List.forall_mem_singleton.mpr ?_⟩
    rw [hmeans, Option.isSome_or, hconcat, Bool.true_or]
  obtain ⟨r, _, _, parameters, result, _, hhost, hcall⟩ := hcalls "same" _ hsame rfl
  obtain rfl : [.number] = parameters := List.map_injective_iff.mpr (Option.some_injective _)
    (congrArg Function.parameters hhost)
  obtain rfl : .number = result := Option.some.inj (congrArg Function.result hhost)
  refine ⟨fun r hr => ?_, (hcall _ _).refuses (by decide), (hcall _ _).ensures, ?_⟩
  · cases hattempt : l.attempt r with
    | error e => exact (hattempted r).fails e hattempt
    | ok l' =>
      have hfree := ((hattempted r).succeeds_iff.mp ⟨l', hattempt⟩).2
      exact nomatch hfree ▸ htaken r hr
  · refine hunseen _ (.cons alike_same (List.forall₂_same.mpr fun r _ => ?_))
    exact ⟨rfl, rfl, fun _ _ _ _ _ _ => rfl⟩

end ReactiveForm
