import ReactiveForm.Proofs.Form.Identity
import ReactiveForm.Proofs.Outcome
import ReactiveForm.Proofs.Tree.Selection

/-!
# Selections of a form

In every form that can be reached, selections are legal: by the mode of the selection and by the
items that its definition has, and by the items of an itemset from the first time on that the
itemset has been computed without failure.
-/

set_option autoImplicit false

namespace ReactiveForm

namespace Pass

variable {book : RuleBook} {evaluate : Tree → Output → Outcome} {p : Pass} {o : Output}
  {found : NodeId → Prop} {R : NodeId → Prop} {K : Output → Prop}

/-- In one of the steps of the pass, the output is computed without failure. -/
def Succeeds (book : RuleBook) (evaluate : Tree → Output → Outcome) (p : Pass) (o : Output) :
    Prop :=
  ∃ k < p.budget book, ∃ v, (runUpTo book evaluate k p).schedule.next? = some o ∧
    (runUpTo book evaluate (k + 1) p).log = o :: (runUpTo book evaluate k p).log ∧
    (evaluate (runUpTo book evaluate k p).tree o).result = .ok v

/-- A step that adds to the log stores what the output comes to. -/
theorem holds_step_of_log (hlog : (p.step book evaluate o).log = o :: p.log) :
    ∃ n, (p.step book evaluate o).tree.get? o.node = some n ∧
      n.Holds o.kind (evaluate p.tree o).result := by
  rcases p.step_cases o with ⟨heq, _⟩ | ⟨heq, _⟩ | ⟨heq, hlive, _⟩
  · rw [heq] at hlog
    exact absurd hlog.symm (List.cons_ne_self o p.log)
  · rw [heq] at hlog
    exact absurd hlog.symm (List.cons_ne_self o p.log)
  · rw [heq]
    obtain ⟨n, hn⟩ := Tree.contains_iff.mp hlive
    exact holds_compute (p := p.unmarked o) hn

/-- From the step on that finds the items of a selection, the selection is there and is held to
them. -/
theorem legal_run_of_succeeds {l : Logic} {id : NodeId} (hc : p.tree.Coherent)
    (hwithin : p.Within l.rules R K) (hkeeps : p.Keeps K)
    (hK : ∀ q, K q → q ∈ l.rules.outputsAt p.tree q.node) (h : p.tree.Legal found)
    (hsucceeds : p.Succeeds l.rules l.outcome ⟨id, .itemset⟩) :
    (p.run l.rules l.outcome).tree.contains id ∧
      (p.run l.rules l.outcome).tree.Legal fun x => found x ∨ x = id := by
  obtain ⟨k, hk, v, hnext, hlog, hresult⟩ := hsucceeds
  have hstep := runUpTo_succ_of_next? hnext
  obtain ⟨n, hn, hholds⟩ := holds_step_of_log (hstep ▸ hlog)
  obtain ⟨list, rfl⟩ : ∃ list, v = .items list := by
    have hfits := Logic.fits_of_result hresult
    cases v with
    | items list => exact ⟨list, rfl⟩
    | flag | text => exact hfits.elim
  rw [← hstep] at hn
  rw [hresult] at hholds
  have hbefore := h.develops (develops_runUpTo l.outcome (k + 1) hc hwithin hK)
  have hfound := hbefore.of_holds hn hholds
  -- What is left of the pass after this step is a pass in its own right.
  have hfollows : p.Follows (runUpTo l.rules l.outcome (k + 1) p) :=
    follows_runUpTo l.outcome (k + 1) hc
  have hrest := (within_runUpTo l.outcome (k + 1) hc hwithin hkeeps).1
  have hrun : p.run l.rules l.outcome = runUpTo l.rules l.outcome (p.budget l.rules - (k + 1))
      (runUpTo l.rules l.outcome (k + 1) p) := by
    rw [← runUpTo_add, Nat.add_sub_cancel' hk]
    rfl
  have hends : (runUpTo l.rules l.outcome (k + 1) p).Follows (p.run l.rules l.outcome) := by
    rw [hrun]
    exact follows_runUpTo l.outcome _ hfollows.coherent
  refine ⟨?_, ?_⟩
  · rw [hends.frame.contains_eq]
    exact Tree.contains_iff.mpr ⟨n, hn⟩
  · rw [hrun]
    refine hfound.develops (develops_runUpTo l.outcome _ hfollows.coherent hrest fun q hq => ?_)
    rw [RuleBook.outputsAt_eq hfollows.frame]
    exact hK q hq

end Pass

theorem Definition.Built.unrepeated {e : Definition} (h : e.Built) : e.Unrepeated := by
  obtain ⟨description, d, hbuild, he⟩ := h
  exact Description.confers_unrepeated.parts_toDefinition hbuild e he

namespace Form

variable {P : Definition → Prop} {f g : Form} {r : Request} {op : Operation}
  {found : NodeId → Prop}

/-- The selections of the form are legal, and each node for which items have been found is live or
has lost its identifier for good. -/
structure Lawful (found : NodeId → Prop) (f : Form) : Prop where
  legal : f.tree.Legal found
  known : ∀ x, found x → f.tree.contains x ∨ f.tree.arena.Spent x

theorem Lawful.known_of_ages (h : f.Lawful found) (hages : f.tree.arena.Ages g.tree.arena) (x : NodeId)
    (hx : found x) : g.tree.contains x ∨ g.tree.arena.Spent x := by
  rcases h.known x hx with hlive | hspent
  · exact hages.contains_or_spent hlive
  · exact .inr (hspent.ages hages)

/-! ## The changes of requests -/

theorem legal_of_entered {id : NodeId} {text : String} (h : f.tree.Legal found)
    (hentered : f.entered id text = .ok g) : g.tree.Legal found := by
  unfold entered at hentered
  obtain ⟨reference, _, hentered⟩ := ok_of_bind hentered
  have hwritten : (f.wrote id (f.tree.write id text)).tree.Legal found := by
    have htree : (f.wrote id (f.tree.write id text)).tree = (f.tree.write id text).2 := rfl
    rw [htree, Tree.write_eq]
    exact h.rewrite fun n _ hlegal => Node.legal_writing hlegal.nodup text
  split at hentered
  · obtain ⟨_, _, hentered⟩ := ok_of_bind hentered
    obtain rfl := Except.ok.inj hentered
    exact hwritten
  · exact nomatch hentered
  · exact nomatch hentered

theorem selected_of_checkChoice {id : NodeId} {item : String} {mode : SelectMode}
    {values : List String} (h : f.checkChoice id item = .ok (mode, values)) {n : Node}
    (hn : f.tree.get? id = some n) : n.selected = values := by
  unfold checkChoice at h
  obtain ⟨reference, _, h⟩ := ok_of_bind h
  simp only [hn] at h
  split at h
  next hcontent =>
    obtain ⟨_, _, h⟩ := ok_of_bind h
    split at h
    · cases h
    · simp_all [Node.selected]
  next => cases h

/-- A choice that repeats no value if none has been repeated before is legal. -/
theorem legal_of_chosen {id : NodeId} {item : String}
    {next : SelectMode → List String → List String} (h : f.tree.Legal found)
    (hnext : ∀ mode values, values.Nodup → (next mode values).Nodup)
    (hchosen : f.chosen id item next = .ok g) : g.tree.Legal found := by
  unfold chosen at hchosen
  obtain ⟨⟨mode, values⟩, hchoice, hchosen⟩ := ok_of_bind hchosen
  obtain rfl := Except.ok.inj hchosen
  have htree : (f.wrote id (f.tree.selectValues id (next mode values))).tree
      = (f.tree.selectValues id (next mode values)).2 := rfl
  rw [htree, Tree.selectValues_eq]
  refine h.rewrite fun n hn hlegal => Node.legal_selecting hlegal.nodup fun hdefault => ?_
  rw [← selected_of_checkChoice hchoice hn]
  exact hnext mode n.selected (hlegal.nodup hdefault)

theorem Lawful.begins (h : f.Lawful found) (hready : f.Ready P) (hfull : r.isFull)
    (hbegins : Begins f r g) : g.tree.Legal found := by
  cases hbegins with
  | write hpartial => exact nomatch hfull.symm.trans hpartial
  | insert place count _ hrange =>
    exact h.legal.insertInstances hready.sound.arena hrange h.known place count _
  | remove range place count => exact h.legal.removeInstances range place count
  | recompute => exact h.legal

theorem Lawful.begun (h : f.Lawful found) (hready : f.Ready P) (hbegun : f.begun r = .ok g) :
    g.Lawful found := by
  refine ⟨?_, h.known_of_ages (begins_of_begun hbegun).ages⟩
  cases r with
  | setValue id text => exact legal_of_entered h.legal hbegun
  | select id item =>
    rw [Form.begun] at hbegun
    refine legal_of_chosen h.legal (fun mode values hvalues => ?_) hbegun
    cases mode with
    | single => exact List.nodup_singleton item
    | multiple =>
      change (if item ∈ values then values else values ++ [item]).Nodup
      split
      next => exact hvalues
      next hnew =>
        exact List.nodup_append'.mpr ⟨hvalues, List.nodup_singleton item, by simpa using hnew⟩
  | deselect id item => exact legal_of_chosen h.legal (fun _ _ hvalues => hvalues.filter _) hbegun
  | addInstances | addInstancesFrom | removeInstances | recompute =>
    exact h.begins hready rfl (begins_of_begun hbegun)

/-! ## Passes and operations -/

theorem Ready.lawful_recalculate (hready : g.Ready P) (h : g.Lawful found) :
    g.recalculate.Lawful found :=
  ⟨h.legal.develops (Pass.develops_runUpTo g.logic.outcome _ hready.sound.toCoherent hready.within
      fun _ hq => hq),
    h.known_of_ages hready.ages_recalculate⟩

theorem Lawful.started (h : f.Lawful found) (hready : f.Ready P) (hstarted : f.started op = some g) :
    g.Lawful found := by
  rcases started_eq_some hstarted with ⟨r, _, hbegun⟩ | ⟨library, rfl⟩
  · exact h.begun hready hbegun
  · exact ⟨h.legal, h.known⟩

theorem Lawful.carryOut (h : f.Lawful found) (hready : f.Ready P) (hoffers : op.Offers P) :
    (f.carryOut op).Lawful found := by
  rcases f.carryOut_cases op with ⟨g, hstarted, heq⟩ | ⟨_, cache, heq⟩
  · rw [heq]
    exact (hready.started hoffers hstarted).lawful_recalculate (h.started hready hstarted)
  · rw [heq]
    exact ⟨h.legal, h.known⟩

theorem Leads.lawful (hleads : f.Leads P g) (hf : f.Reachable P) (h : f.Lawful found) :
    g.Lawful found := by
  induction hleads with
  | refl => exact h
  | operate op hleads hoffers ih => exact ih.carryOut (hleads.reachable hf).ready.1 hoffers

/-- Whatever is found later on, selections are legal in all forms that can be reached. -/
theorem Reachable.lawful (h : f.Reachable P) : f.Lawful fun _ => False := by
  induction h with
  | @load d config now _ hroot hparts hload =>
    obtain ⟨rules, _, rfl⟩ := exists_of_load hload
    exact (ready_opened config now rules hroot hparts).marked.lawful_recalculate
      ⟨Tree.legal_ofDefinition d, nofun⟩
  | operate op hreachable hoffers ih => exact ih.carryOut hreachable.ready.1 hoffers

theorem Starts.lawful (h : g.Starts P) : g.Lawful fun _ => False := by
  cases h with
  | load config now _ _ _ => exact ⟨Tree.legal_ofDefinition _, nofun⟩
  | operation hreachable _ hstarted => exact hreachable.lawful.started hreachable.ready.1 hstarted

theorem Starts.reachable (h : g.Starts P) : g.recalculate.Reachable P := by
  cases h with
  | load config now hroot hparts hrules =>
    exact .load hroot hparts (load_of_ofDefinition hrules config now)
  | @operation f _ op hreachable hoffers hstarted =>
    rcases f.carryOut_cases op with ⟨g', hstarted', heq⟩ | ⟨hnone, _⟩
    · obtain rfl : g = g' := Option.some.inj (hstarted.symm.trans hstarted')
      rw [← heq]
      exact hreachable.operate op hoffers
    · exact nomatch hnone.symm.trans hstarted

/-- A pass that finds the items of a selection leaves a form in which the selection is held to
them. -/
theorem Starts.lawful_of_succeeds {id : NodeId} (h : g.Starts P)
    (hsucceeds : g.start.Succeeds g.logic.rules g.logic.outcome ⟨id, .itemset⟩) :
    g.recalculate.Lawful (· = id) := by
  have hready := h.ready
  obtain ⟨hlive, hlegal⟩ := Pass.legal_run_of_succeeds hready.sound.toCoherent hready.within
    hready.keeps (fun _ hq => hq) h.lawful.legal hsucceeds
  refine ⟨fun x m hm => (hlegal x m hm).mono .inr, ?_⟩
  rintro x rfl
  exact .inl hlive

end Form

/-! ## A selection whose items are computed -/

def Description.poll : Description where
  name := "f"
  children := [
    { name := "s", kind := some .selectMany, default := some "x y",
      itemset := some { nodeset := "/f/o", value := ".", label := "." } },
    { name := "o", default := some "x" }]

def Definition.poll : Definition :=
  .root ⟨"/f", "f", {}, none, none⟩ [
    .select ⟨"/f/s", "s", {}, none, none⟩ .multiple ["x", "y"] [] (some ⟨"/f/o", ".", "."⟩),
    .value ⟨"/f/o", "o", {}, none, none⟩ "x"]

def RuleBook.poll : RuleBook :=
  [("/f/o", {}),
    ("/f/s", { itemset := some {
      nodeset := .path .root [⟨.child, .name "f", []⟩, ⟨.child, .name "o", []⟩]
      value := .path .context [⟨.self, .node, []⟩]
      label := .path .context [⟨.self, .node, []⟩] } }),
    ("/f", {})]

set_option maxRecDepth 20000 in
theorem Description.toDefinition_poll : Description.poll.toDefinition = .ok .poll := by rfl

set_option maxRecDepth 20000 in
theorem RuleBook.ofDefinition_poll : RuleBook.ofDefinition .poll = .ok .poll := by rfl

namespace Form

/-- The form before its first pass. -/
def poll : Form := (opened .poll {} .epoch .poll).marked

/-- The form after a value has been selected that is no item, which is refused. -/
def pollTried : Form := poll.recalculate.carryOut (.request (.select ⟨1, 0⟩ "y"))

end Form

end ReactiveForm
