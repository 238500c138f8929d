import Mathlib.Logic.Relation
import ReactiveForm.Proofs.Document.Preorder
import ReactiveForm.Proofs.Eval.Recording

/-!
# The course of an evaluation

An evaluation asks for the evaluation of parts of its expression, each at its time: for an operand
after the ones to the left of it, for a predicate once the nodes are found that it is applied to.
What the logs hold at these times is in the log at the end, also when the evaluation fails on the
way. So the dependencies that are reported list every node once, in the order of first reading, and
no node is missing that a location path has come to.

The functions of a host take part in this if they do nothing with the log but add to it.
-/

set_option autoImplicit false

namespace ReactiveForm

open Reading (Finds Runs Recording Turn Inside inherited_recording)

/-- An evaluation that is about to begin: the expression, the node in view, and what has been read
by then. -/
structure Evaluation (N : Type) where
  expr : Expr
  focus : Focus N
  log : Reads N

namespace Environment

variable {N : Type} [DecidableEq N] [Ord N]

/-- The nodes that a predicate is applied to, with their places, counted from `position`. -/
def places (size : Nat) : (position : Nat) → List N → List (Focus N)
  | _, [] => []
  | position, x :: xs => ⟨x, position, size⟩ :: places size (position + 1) xs

variable (env : Environment N)

/-- What predicates ask for. The second predicate is applied to what the first one has left. -/
inductive TestsWith : List Expr → List N → Reads N → Evaluation N → Prop where
  | here {p : Expr} {ps : List Expr} {xs : List N} {r r' : Reads N} {focus : Focus N} :
    Turn (env.eval p) (places xs.length 1 xs) r focus r' → TestsWith (p :: ps) xs r ⟨p, focus, r'⟩
  | later {p : Expr} {ps : List Expr} {xs kept : List N} {r r₁ : Reads N} {t : Evaluation N} :
    (env.evalPredicates [p] xs).Runs r kept r₁ → TestsWith ps kept r₁ t →
    TestsWith (p :: ps) xs r t

/-- What the steps of a path ask for, from node to node and from step to step. -/
inductive GoesBy : List (Step Expr) → List N → Reads N → Evaluation N → Prop where
  | here {s : Step Expr} {rest : List (Step Expr)} {xs found : List N} {x : N}
      {r r' r₁ : Reads N} {t : Evaluation N} :
    Turn (env.evalStep s rest.isEmpty) xs r x r' →
    (env.candidates s.axis s.test rest.isEmpty x).Runs r' found r₁ →
    env.TestsWith s.predicates found r₁ t → GoesBy (s :: rest) xs r t
  | later {s : Step Expr} {rest : List (Step Expr)} {xs found : List N} {r r₁ : Reads N}
      {t : Evaluation N} :
    (collect (env.evalStep s rest.isEmpty) xs).Runs r found r₁ →
    GoesBy rest (env.document.nodeSet found) r₁ t → GoesBy (s :: rest) xs r t

/-- An evaluation asks for another one. -/
inductive Asks : Evaluation N → Evaluation N → Prop where
  | argument {name : String} {args : List Expr} {focus : Focus N} {r r' : Reads N}
      {f : Function N} {e : Expr} :
    env.library.resolve name args.length = .ok f → (f.builtin && name = "if") = false →
    Turn (env.eval · focus) args r e r' → Asks ⟨.call name args, focus, r⟩ ⟨e, focus, r'⟩
  | condition {condition yes no : Expr} {focus : Focus N} {r : Reads N} {f : Function N} :
    env.library.resolve "if" 3 = .ok f → f.builtin →
    Asks ⟨.call "if" [condition, yes, no], focus, r⟩ ⟨condition, focus, r⟩
  | branch {condition yes no : Expr} {focus : Focus N} {r r' : Reads N} {f : Function N}
      {v : Value N} :
    env.library.resolve "if" 3 = .ok f → f.builtin → (env.eval condition focus).Runs r v r' →
    Asks ⟨.call "if" [condition, yes, no], focus, r⟩ ⟨if v.toBool then yes else no, focus, r'⟩
  | left {op : Operator} {e d : Expr} {focus : Focus N} {r : Reads N} :
    Asks ⟨.binary op e d, focus, r⟩ ⟨e, focus, r⟩
  | right {op : Operator} {e d : Expr} {focus : Focus N} {r r' : Reads N} {v : Value N} :
    (env.eval e focus).Runs r v r' → (op = .or → v.toBool = false) → (op = .and → v.toBool) →
    Asks ⟨.binary op e d, focus, r⟩ ⟨d, focus, r'⟩
  | negated {e : Expr} {focus : Focus N} {r : Reads N} : Asks ⟨.negate e, focus, r⟩ ⟨e, focus, r⟩
  | unionLeft {e d : Expr} {focus : Focus N} {r : Reads N} :
    Asks ⟨.union e d, focus, r⟩ ⟨e, focus, r⟩
  | unionRight {e d : Expr} {focus : Focus N} {r r' : Reads N} {xs : List N} :
    (env.eval e focus).Runs r (.nodes xs) r' → Asks ⟨.union e d, focus, r⟩ ⟨d, focus, r'⟩
  | base {e : Expr} {ps : List Expr} {focus : Focus N} {r : Reads N} :
    Asks ⟨.filter e ps, focus, r⟩ ⟨e, focus, r⟩
  | predicate {e : Expr} {ps : List Expr} {focus : Focus N} {r r' : Reads N} {xs : List N}
      {t : Evaluation N} :
    (env.eval e focus).Runs r (.nodes xs) r' → env.TestsWith ps xs r' t →
    Asks ⟨.filter e ps, focus, r⟩ t
  | start {e : Expr} {steps : List (Step Expr)} {focus : Focus N} {r : Reads N} :
    Asks ⟨.path (.nodes e) steps, focus, r⟩ ⟨e, focus, r⟩
  | step {start : Start Expr} {steps : List (Step Expr)} {focus : Focus N} {r r' : Reads N}
      {xs : List N} {t : Evaluation N} :
    (env.evalStart start focus).Runs r xs r' → env.GoesBy steps xs r' t →
    Asks ⟨.path start steps, focus, r⟩ t

/-- The second evaluation is asked for in the course of the first one. -/
def Involves : Evaluation N → Evaluation N → Prop := Relation.ReflTransGen env.Asks

/-- The log at the end of an evaluation. -/
def logAfter (t : Evaluation N) : Reads N := (env.eval t.expr t.focus).logged t.log

/-- What one evaluation has read when it is done is in the log of the other one at its end. -/
def Includes (t t' : Evaluation N) : Prop :=
  Inside (env.eval t'.expr t'.focus) t'.log (env.eval t.expr t.focus) t.log

variable {env}

/-! ## Elements of lists -/

omit [Ord N] in
theorem inside_collect {f : N → Reading N (List N)} (hf : ∀ x, Recording (f x)) {xs : List N}
    {x : N} {r r' : Reads N} (h : Turn f xs r x r') : Inside (f x) r' (collect f xs) r := by
  have hall (xs : List N) : Recording (collect f xs) := inherited_collect inherited_recording hf xs
  induction h with
  | here => exact .head _ (hf _) (hall _)
  | later hruns _ ih => exact .tail _ (hf _) (hall _) hruns ih

section

variable (heval : ∀ e focus, Recording (env.eval e focus))

include heval

theorem inside_evalAll {es : List Expr} {e : Expr} {focus : Focus N} {r r' : Reads N}
    (h : Turn (env.eval · focus) es r e r') :
    Inside (env.eval e focus) r' (env.evalAll es focus) r := by
  have hall (es : List Expr) : Recording (env.evalAll es focus) :=
    inherited_evalAll inherited_recording (fun e _ => heval e) focus
  induction h with
  | here =>
    rw [evalAll]
    exact .head _ (heval _ _) (hall _)
  | later hruns _ ih =>
    rw [evalAll]
    exact .tail _ (heval _ _) (hall _) hruns ih

theorem recording_holds (p : Expr) (focus : Focus N) :
    Recording (do pure (admits focus.position (← env.eval p focus))) :=
  inherited_recording.after (heval p focus) fun _ => inherited_recording.pure _

theorem inside_select {p : Expr} {size position : Nat} {xs : List N} {focus : Focus N}
    {r r' : Reads N} (h : Turn (env.eval p) (places size position xs) r focus r') :
    Inside (env.eval p focus) r'
      (select (fun focus => do pure (admits focus.position (← env.eval p focus))) size position xs)
      r := by
  have hholds := recording_holds heval p
  have hall (position : Nat) (xs : List N) :=
    inherited_select inherited_recording hholds size position xs
  induction xs generalizing position r with
  | nil => cases h
  | cons x xs ih =>
    rw [select]
    cases h with
    | here =>
      have hfirst {r : Reads N} := Inside.first (r := r) (heval p ⟨x, position, size⟩) fun v =>
        inherited_recording.pure (admits position v)
      exact hfirst.trans (.head _ (hholds _) (hall _ xs))
    | later hruns hturn => exact .tail _ (hholds _) (hall _ xs) hruns.map (ih hturn)

omit heval in
theorem evalPredicates_cons (p : Expr) (ps : List Expr) (xs : List N) :
    env.evalPredicates (p :: ps) xs = env.evalPredicates [p] xs >>= env.evalPredicates ps := by
  simp [evalPredicates]

theorem recording_evalPredicates (ps : List Expr) (xs : List N) :
    Recording (env.evalPredicates ps xs) :=
  inherited_evalPredicates inherited_recording (fun p _ => heval p) xs

theorem inside_evalPredicates {ps : List Expr} {xs : List N} {r : Reads N} {t : Evaluation N}
    (h : env.TestsWith ps xs r t) :
    Inside (env.eval t.expr t.focus) t.log (env.evalPredicates ps xs) r := by
  have hall := recording_evalPredicates heval
  induction h with
  | @here p ps xs _ _ _ hturn =>
    rw [evalPredicates]
    exact (inside_select heval hturn).bind
      (inherited_select inherited_recording (recording_holds heval p) _ _ xs) (hall ps)
  | later hruns _ ih =>
    rw [evalPredicates_cons]
    exact .rest (hall _ _) hruns ih

/-! ## Steps -/

theorem recording_evalStep (s : Step Expr) (isLast : Bool) (x : N) :
    Recording (env.evalStep s isLast x) :=
  inherited_evalStep inherited_recording (fun p _ => heval p) isLast x

theorem recording_collect (s : Step Expr) (isLast : Bool) (xs : List N) :
    Recording (collect (env.evalStep s isLast) xs) :=
  inherited_collect inherited_recording (recording_evalStep heval s isLast) xs

theorem recording_evalSteps (steps : List (Step Expr)) (xs : List N) :
    Recording (env.evalSteps steps xs) :=
  inherited_evalSteps inherited_recording (fun _ _ p _ => heval p) xs

theorem inside_evalStep {s : Step Expr} {isLast : Bool} {x : N} {found : List N} {r r₁ : Reads N}
    {t : Evaluation N} (hfound : (env.candidates s.axis s.test isLast x).Runs r found r₁)
    (h : env.TestsWith s.predicates found r₁ t) :
    Inside (env.eval t.expr t.focus) t.log (env.evalStep s isLast x) r := by
  obtain ⟨axis, test, predicates⟩ := s
  rw [evalStep]
  exact .rest (inherited_candidates inherited_recording _ _ _ _) hfound
    (inside_evalPredicates heval h)

theorem inside_evalSteps {steps : List (Step Expr)} {xs : List N} {r : Reads N} {t : Evaluation N}
    (h : env.GoesBy steps xs r t) :
    Inside (env.eval t.expr t.focus) t.log (env.evalSteps steps xs) r := by
  induction h with
  | @here s rest xs _ _ _ _ _ _ hturn hfound htests =>
    rw [evalSteps]
    have hstep := inside_collect (recording_evalStep heval s rest.isEmpty) hturn
    exact ((inside_evalStep heval hfound htests).trans hstep).bind
      (recording_collect heval _ _ _) fun _ => recording_evalSteps heval _ _
  | later hruns _ ih =>
    rw [evalSteps]
    exact .rest (recording_collect heval _ _ _) hruns ih

end

/-! ## Expressions -/

theorem eval_if {args : List Expr} {f : Function N} (focus : Focus N)
    (hf : env.library.resolve "if" args.length = .ok f) (hbuiltin : f.builtin) :
    env.eval (.call "if" args) focus = env.evalChoice args focus := by
  simp [eval, hf, Reading.ofExcept, hbuiltin]

section

variable (hlibrary : env.library.Always fun _ m => Recording m)

include hlibrary

theorem recording_eval (e : Expr) (focus : Focus N) : Recording (env.eval e focus) :=
  inherited_eval inherited_recording hlibrary e focus

theorem inside_call {name : String} {args : List Expr} {f : Function N} {focus : Focus N}
    {e : Expr} {r r' : Reads N} (hf : env.library.resolve name args.length = .ok f)
    (hcall : (f.builtin && name = "if") = false) (h : Turn (env.eval · focus) args r e r') :
    Inside (env.eval e focus) r' (env.eval (.call name args) focus) r := by
  have heval := recording_eval hlibrary
  have happly (vs : List (Value N)) : Recording (f.apply (env.call focus) vs) :=
    inherited_recording.apply _ (hlibrary _ (Library.mem_of_resolve hf)) vs
  simp only [eval, hf, Reading.ofExcept, pure_bind, hcall]
  exact (inside_evalAll heval h).bind
    (inherited_evalAll inherited_recording (fun e _ => heval e) focus) happly

theorem inside_binary_left {op : Operator} {e d : Expr} {focus : Focus N} {r : Reads N} :
    Inside (env.eval e focus) r (env.eval (.binary op e d) focus) r := by
  have heval := recording_eval hlibrary
  have hthen {α : Type} (g : Value N → α) : Recording (do pure (g (← env.eval d focus))) :=
    inherited_recording.after (heval d focus) fun _ => inherited_recording.pure _
  cases op with
  | or | and =>
    simp only [eval]
    refine .first (heval e focus) fun v => ?_
    cases v.toBool with
    | true => first | exact inherited_recording.pure _ | exact hthen _
    | false => first | exact inherited_recording.pure _ | exact hthen _
  | add | sub | mul | div | mod | eq | ne | lt | le | gt | ge =>
    simp only [eval]
    exact .first (heval e focus) fun _ => hthen _

theorem inside_binary_right {op : Operator} {e d : Expr} {focus : Focus N} {r r' : Reads N}
    {v : Value N} (hruns : (env.eval e focus).Runs r v r') (hor : op = .or → v.toBool = false)
    (hand : op = .and → v.toBool) :
    Inside (env.eval d focus) r' (env.eval (.binary op e d) focus) r := by
  have heval := recording_eval hlibrary
  cases op with
  | or =>
    simp only [eval]
    refine .rest (heval e focus) hruns ?_
    rw [hor rfl]
    exact .first (heval d focus) fun _ => inherited_recording.pure _
  | and =>
    simp only [eval]
    refine .rest (heval e focus) hruns ?_
    rw [hand rfl]
    exact .first (heval d focus) fun _ => inherited_recording.pure _
  | add | sub | mul | div | mod | eq | ne | lt | le | gt | ge =>
    simp only [eval]
    refine .rest (heval e focus) hruns ?_
    exact .first (heval d focus) fun _ => inherited_recording.pure _

theorem recording_nodes (e : Expr) (focus : Focus N) :
    Recording (do Reading.ofExcept (← env.eval e focus).toNodes) :=
  inherited_recording.after (recording_eval hlibrary e focus) fun _ =>
    inherited_recording.ofExcept _

theorem inside_nodes (e : Expr) (focus : Focus N) (r : Reads N) :
    Inside (env.eval e focus) r (do Reading.ofExcept (← env.eval e focus).toNodes) r :=
  .first (recording_eval hlibrary e focus) fun _ => inherited_recording.ofExcept _

omit hlibrary in
theorem runs_nodes {e : Expr} {focus : Focus N} {r r' : Reads N} {xs : List N}
    (h : (env.eval e focus).Runs r (.nodes xs) r') :
    Runs (do Reading.ofExcept (← env.eval e focus).toNodes) r xs r' :=
  Reading.run_bind_ok h

omit hlibrary in
theorem eval_union (e d : Expr) (focus : Focus N) : env.eval (.union e d) focus = (do
    let xs ← (do Reading.ofExcept (← env.eval e focus).toNodes)
    let ys ← (do Reading.ofExcept (← env.eval d focus).toNodes)
    pure (.nodes (env.document.nodeSet (xs ++ ys)))) := by
  simp only [eval, bind_assoc]

omit hlibrary in
theorem eval_filter (e : Expr) (ps : List Expr) (focus : Focus N) :
    env.eval (.filter e ps) focus = (do
      let xs ← (do Reading.ofExcept (← env.eval e focus).toNodes)
      pure (.nodes (← env.evalPredicates ps xs))) := by
  simp only [eval, bind_assoc]

theorem recording_found (steps : List (Step Expr)) (xs : List N) :
    Recording (do pure (Value.nodes (← env.evalSteps steps xs))) :=
  inherited_recording.after (recording_evalSteps (recording_eval hlibrary) steps xs) fun _ =>
    inherited_recording.pure _

/-- One evaluation includes every other one that it asks for. -/
theorem includes_of_asks {t t' : Evaluation N} (h : env.Asks t t') : env.Includes t t' := by
  have heval := recording_eval hlibrary
  have hnodes := recording_nodes hlibrary
  have hpure {α : Type} (a : α) : Recording (pure a : Reading N α) := inherited_recording.pure a
  unfold Includes
  cases h with
  | argument hf hcall hturn => exact inside_call hlibrary hf hcall hturn
  | condition hf hbuiltin =>
    rw [eval_if _ hf hbuiltin, evalChoice]
    refine .first (heval _ _) fun v => ?_
    cases v.toBool with
    | true => exact heval _ _
    | false => exact heval _ _
  | @branch _ _ _ _ _ _ _ v hf hbuiltin hruns =>
    rw [eval_if _ hf hbuiltin, evalChoice]
    refine .rest (heval _ _) hruns ?_
    cases v.toBool with
    | true => exact .refl _ _
    | false => exact .refl _ _
  | left => exact inside_binary_left hlibrary
  | right hruns hor hand => exact inside_binary_right hlibrary hruns hor hand
  | negated =>
    simp only [eval]
    exact .first (heval _ _) fun _ => hpure _
  | unionLeft =>
    rw [eval_union]
    exact (inside_nodes hlibrary _ _ _).trans (.head _ (hnodes _ _) (hnodes _ _))
  | unionRight hruns =>
    rw [eval_union]
    exact .tail _ (hnodes _ _) (hnodes _ _) (runs_nodes hruns) (inside_nodes hlibrary _ _ _)
  | base =>
    rw [eval_filter]
    exact (inside_nodes hlibrary _ _ _).bind (hnodes _ _) fun _ =>
      inherited_recording.after (recording_evalPredicates heval _ _) fun _ => hpure _
  | predicate hruns htests =>
    rw [eval_filter]
    have hfirst := (inside_evalPredicates heval htests).bind (recording_evalPredicates heval _ _)
      fun ys => hpure (Value.nodes ys)
    exact .rest (hnodes _ _) (runs_nodes hruns) hfirst
  | @start _ steps _ _ =>
    simp only [eval, evalStart]
    refine (inside_nodes hlibrary _ _ _).bind (hnodes _ _) fun xs => ?_
    have hfound := recording_found hlibrary steps xs
    cases steps.isEmpty with
    | true => exact inherited_recording.after (inherited_recording.note xs) fun _ => hfound
    | false => exact hfound
  | @step start steps focus _ _ _ _ hruns hsteps =>
    have hstart := inherited_evalStart inherited_recording hlibrary start focus
    have hfirst := (inside_evalSteps heval hsteps).bind (recording_evalSteps heval _ _)
      fun ys => hpure (Value.nodes ys)
    simp only [eval]
    refine .rest hstart hruns ?_
    -- where steps are taken, the nodes that they start from are not read by the path itself
    cases hsteps with
    | here => exact hfirst
    | later => exact hfirst

/-- What is read in the course of an evaluation is in its log at the end, in the same order. -/
theorem includes_of_involves {t t' : Evaluation N} (h : env.Involves t t') :
    env.Includes t t' := by
  induction h with
  | refl => exact .refl _ _
  | tail _ hasks ih => exact (includes_of_asks hlibrary hasks).trans ih

end

/-! ## Paths -/

omit [Ord N] in
theorem finds_collect {f : N → Reading N (List N)} (hf : ∀ x, Recording (f x))
    (hfinds : ∀ x, Finds (f x)) (xs : List N) : Finds (collect f xs) := by
  have hall (xs : List N) : Recording (collect f xs) := inherited_collect inherited_recording hf xs
  induction xs with
  | nil =>
    rintro r zs r' ⟨⟩
    exact List.nil_subset _
  | cons x xs ih =>
    intro r zs r' h
    obtain ⟨ys, r₁, hfirst, h⟩ := Reading.runs_bind (hf x) h
    obtain ⟨rest, r₂, hrest, ⟨⟩⟩ := Reading.runs_bind (hall xs) h
    have hys : ys ⊆ r'.nodes :=
      List.Subset.trans (hfinds x r ys r₁ hfirst) (hrest.starts (hall xs)).subset
    exact List.append_subset.mpr ⟨hys, ih r₁ rest r' hrest⟩

theorem finds_candidates (axis : Axis) (test : NodeTest) (x : N) :
    Finds (env.candidates axis test true x) := by
  unfold candidates
  simp only [if_true]
  split
  · exact .bind (inherited_recording.note [x]) fun _ => .note _
  · exact .note _

section

variable (heval : ∀ e focus, Recording (env.eval e focus))

include heval

/-- The last step of a path reads all that passes the node test, and the predicates leave a part of
it. -/
theorem finds_evalStep (s : Step Expr) (x : N) : Finds (env.evalStep s true x) := by
  obtain ⟨axis, test, predicates⟩ := s
  have hpredicates := recording_evalPredicates heval predicates
  intro r ys r' h
  rw [evalStep] at h
  obtain ⟨found, r₁, hfound, h⟩ :=
    Reading.runs_bind (inherited_candidates inherited_recording axis test true x) h
  have hkept : ys.Sublist found :=
    (evalPredicates_sublist (fun p _ focus => (heval p focus).steady) found).of_value
      (h.value_eq (hpredicates found))
  have hread : found ⊆ r'.nodes :=
    List.Subset.trans (finds_candidates axis test x r found r₁ hfound)
      (h.starts (hpredicates found)).subset
  exact List.Subset.trans hkept.subset hread

theorem finds_evalSteps {steps : List (Step Expr)} (hsteps : steps ≠ []) (xs : List N) :
    Finds (env.evalSteps steps xs) := by
  induction steps generalizing xs with
  | nil => exact absurd rfl hsteps
  | cons s rest ih =>
    have hcollect := recording_collect heval s rest.isEmpty xs
    rw [evalSteps]
    cases rest with
    | nil =>
      intro r zs r' h
      simp only [evalSteps] at h
      obtain ⟨found, r₁, hfound, ⟨⟩⟩ := Reading.runs_bind hcollect h
      have hread := finds_collect (recording_evalStep heval s true) (finds_evalStep heval s) xs
        r found _ hfound
      exact fun z hz => hread ((env.document.mem_nodeSet z found).mp hz)
    | cons next rest => exact .bind hcollect fun found => ih (by simp) _

/-- The nodes of a location path have been read when they are found. -/
theorem path_subset {start : Start Expr} {steps : List (Step Expr)} {focus : Focus N}
    {r r' : Reads N} {found : List N}
    (hstart : Recording (env.evalStart start focus))
    (h : (env.eval (.path start steps) focus).Runs r (.nodes found) r') : found ⊆ r'.nodes := by
  have hrecording := recording_evalSteps heval
  simp only [eval] at h
  obtain ⟨xs, r₁, _, h⟩ := Reading.runs_bind hstart h
  cases steps with
  | nil =>
    simp only [List.isEmpty_nil, if_true, evalSteps, pure_bind] at h
    obtain ⟨_, r₂, hnote, ⟨⟩⟩ := Reading.runs_bind (inherited_recording.note xs) h
    exact Finds.note found r₁ found r' (Reading.run_bind_ok hnote)
  | cons s rest =>
    simp only [List.isEmpty_cons, Bool.false_eq_true, if_false] at h
    obtain ⟨_, _, hfound, ⟨⟩⟩ := Reading.runs_bind (hrecording _ xs) h
    exact finds_evalSteps heval (by simp) xs r₁ found r' hfound

end

/-! ## Dependencies -/

/-- What an expression reads at a node if nothing has been read before. -/
def reads (env : Environment N) (e : Expr) (focus : Focus N) : List N :=
  (env.logAfter ⟨e, focus, .empty⟩).nodes

/-- The functions are built in, or do nothing with the log but add to it. -/
def HostsRecord (env : Environment N) : Prop :=
  ∀ f ∈ env.library.entries,
    f ∈ (Library.builtins : Library N).entries ∨ f.2.body.Always fun _ m => Recording m

theorem HostsRecord.always (h : env.HostsRecord) :
    env.library.Always fun _ m => Recording m := by
  intro f hf
  rcases h f hf with hbuiltin | hhost
  · exact inherited_recording.builtins f hbuiltin
  · exact hhost

section

variable (hhosts : env.HostsRecord)

include hhosts

/-- What has been read before an evaluation, and then what it reads itself, stands in the log of
every evaluation that involves it. -/
theorem exists_logAfter_eq {t t' : Evaluation N} (h : env.Involves t t') :
    ∃ later, (env.logAfter t).nodes =
      t'.log.nodes ++ (env.reads t'.expr t'.focus).filter (· ∉ t'.log.nodes) ++ later := by
  obtain ⟨later, hlater⟩ := (includes_of_involves hhosts.always h).after
  have hown := (recording_eval hhosts.always t'.expr t'.focus).nodes_logged t'.log
  exact ⟨later, hlater.symm.trans (congrArg (· ++ later) hown)⟩

/-- Also a path that is involved in an evaluation has its nodes in the log at the end. -/
theorem path_subset_logAfter {t t' : Evaluation N} (h : env.Involves t t') {start : Start Expr}
    {steps : List (Step Expr)} {found : List N} (hpath : t'.expr = .path start steps)
    (hfound : (env.eval t'.expr t'.focus).value = .ok (.nodes found)) :
    found ⊆ (env.logAfter t).nodes := by
  obtain ⟨e, focus, log⟩ := t'
  obtain rfl : e = .path start steps := hpath
  have heval := recording_eval hhosts.always
  have hstart := inherited_evalStart inherited_recording hhosts.always start focus
  have hruns := (heval (.path start steps) focus).runs hfound log
  have hincludes := includes_of_involves hhosts.always h
  exact List.Subset.trans (path_subset heval hstart hruns) hincludes.after.subset

/-- Tracking has no influence on the result. The dependencies are what is read, in the order of
first reading: the evaluation comes down to reading some nodes, which are listed without repetitions,
and each evaluation that is involved finds there what has been read before it and then adds what it
reads itself. So all nodes of a location path are listed, whatever becomes of the evaluation later.
-/
theorem evaluateTracked_records (e : Expr) :
    (env.evaluateTracked e).1 = env.evaluate e ∧
    (env.evaluateTracked e).2.nodes.Nodup ∧
    (∃ xs, (env.eval e env.focus = do
        Reading.note xs
        Reading.ofExcept (env.evaluate e)) ∧
      (env.evaluateTracked e).2.nodes = xs.eraseDups) ∧
    ∀ t, env.Involves ⟨e, env.focus, .empty⟩ t →
      (∃ later, (env.evaluateTracked e).2.nodes =
        t.log.nodes ++ (env.reads t.expr t.focus).filter (· ∉ t.log.nodes) ++ later) ∧
      ∀ start steps found, t.expr = .path start steps →
        (env.eval t.expr t.focus).value = .ok (.nodes found) →
        found ⊆ (env.evaluateTracked e).2.nodes := by
  obtain ⟨xs, out, hruns⟩ := recording_eval hhosts.always e env.focus
  -- the whole run is one note of what was read and the outcome
  have hnone : env.evaluate e = out := by
    unfold evaluate
    rw [hruns, Reading.run_note_ofExcept]
  have htracked : env.evaluateTracked e = (out, Reads.recordAll .empty xs) := by
    unfold evaluateTracked
    rw [hruns, Reading.run_note_ofExcept]
    rfl
  refine ⟨?_, ?_, ⟨xs, ?_, ?_⟩, fun t ht => ⟨?_, fun start steps found hpath hfound => ?_⟩⟩
  · rw [htracked, hnone]
  · rw [htracked]
    exact Reads.nodup_recordAll List.nodup_nil xs
  · rw [hnone]
    exact hruns
  · rw [htracked]
    exact Reads.nodes_recordAll_empty xs
  · exact exists_logAfter_eq hhosts ht
  · exact path_subset_logAfter hhosts ht hpath hfound

end

/-! ## A failure on the way -/

/-- A function of a host that reads the current node and gives `true`. -/
def visit : Function (Fin 5) where
  minArguments := 0
  maxArguments := some 0
  parameters := []
  result := some .boolean
  builtin := false
  body c _ := do
    Reading.note [c.current]
    pure (.boolean true)

def visiting : Environment (Fin 5) where
  document := { toHostTree := .sprig }
  current := ⟨1, by decide⟩
  library := ⟨("visit", visit) :: Library.builtins.entries⟩

/-- The expression `/a/* + visit() + missing()`. -/
def visitingSum : Expr :=
  .binary .add
    (.binary .add (.path .root [⟨.child, .name "a", []⟩, ⟨.child, .any, []⟩]) (.call "visit" []))
    (.call "missing" [])

theorem evaluateTracked_records_visiting :
    visiting.HostsRecord ∧
      (visiting.evaluateTracked visitingSum).1 = .error (.unknownFunction "missing") ∧
      [3, 4] ⊆ (visiting.evaluateTracked visitingSum).2.nodes ∧
      (visiting.evaluateTracked visitingSum).2.nodes = [3, 4, 1] := by
  have hhosts : visiting.HostsRecord := by
    intro f hf
    rcases List.mem_cons.mp hf with rfl | hf
    · exact .inr fun c _ => ⟨[c.current], .ok (.boolean true), rfl⟩
    · exact .inl hf
  obtain ⟨hsame, _, _, hcourse⟩ := evaluateTracked_records hhosts visitingSum
  have hinvolves : visiting.Involves ⟨visitingSum, visiting.focus, .empty⟩
      ⟨.path .root [⟨.child, .name "a", []⟩, ⟨.child, .any, []⟩], visiting.focus, .empty⟩ :=
    .tail (.single .left) .left
  have hfailure : visiting.evaluate visitingSum = .error (.unknownFunction "missing") := by
    decide +kernel
  refine ⟨hhosts, hsame.trans hfailure, ?_, by decide +kernel⟩
  exact (hcourse _ hinvolves).2 _ _ [3, 4] rfl (by unfold Reading.value; decide +kernel)

end Environment

end ReactiveForm
