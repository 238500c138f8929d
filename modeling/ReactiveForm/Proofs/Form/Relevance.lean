import ReactiveForm.Proofs.Form.Reachable
import ReactiveForm.Proofs.Schedule.Relevance

/-!
# What new instances hold

New instances start with the defaults of their template. The pass that follows empties those of
their nodes that are not relevant, but for one case: where the range itself was not relevant before,
nothing ceases to be relevant, and the defaults stay.
-/

set_option autoImplicit false

namespace ReactiveForm

namespace Tree

variable {typed : Prop} {t : Tree}

theorem Connected.isRelevant_child (h : t.Connected) {p c : NodeId} (hp : t.parent c = some p) :
    t.isRelevant c = (t.hasRelevance c && t.isRelevant p) := by
  simp [isRelevant, isReachable, h.ancestors_of_parent hp]

section

variable (h : t.Sound typed) {range : NodeId} {template : Definition} {place count : Nat}
  (hafter : (t.insertInstances range place count template).Connected)

include h hafter

/-- New instances have no bearing on the relevance of the nodes that are there. -/
theorem isRelevant_insertInstances {x : NodeId} (hx : ∃ n, t.get? x = some n) :
    (t.insertInstances range place count template).isRelevant x = t.isRelevant x := by
  have hkept {x : NodeId} (hx : ∃ n, t.get? x = some n) :
      (t.insertInstances range place count template).parent x = t.parent x ∧
        (t.insertInstances range place count template).hasRelevance x = t.hasRelevance x := by
    obtain ⟨n, hn⟩ := hx
    obtain ⟨children, hn', _⟩ := kept_insertInstances h.arena hn range place count template
    simp [parent, hasRelevance, hn, hn']
  obtain ⟨n, hn⟩ := hx
  obtain ⟨depth, hdepth⟩ := h.connected.rooted hn
  clear hn n
  -- the induction is on the depth: relevance is handed down along the parents, which stay
  induction depth generalizing x with
  | zero =>
    obtain rfl : x = t.root := hdepth
    have hroot : (t.insertInstances range place count template).ancestors t.root = [] :=
      hafter.ancestors_root
    obtain ⟨m, hm, _⟩ := h.connected.root_live
    simp [isRelevant, isReachable, hroot, h.connected.ancestors_root, (hkept ⟨m, hm⟩).2]
  | succ depth ih =>
    obtain ⟨p, hp, hdepth⟩ := hdepth
    obtain ⟨n, hn, _⟩ := get?_of_parent hp
    obtain ⟨hparent, hflag⟩ := hkept ⟨n, hn⟩
    rw [hafter.isRelevant_child (hparent.trans hp), h.connected.isRelevant_child hp, hflag,
      ih hdepth]

/-- A new node is as relevant as its range. -/
theorem isRelevant_new (hrange : ∃ r, t.get? range = some r) {x : NodeId} {n : Node}
    (hnone : t.get? x = none)
    (hn : (t.insertInstances range place count template).get? x = some n) :
    (t.insertInstances range place count template).isRelevant x = t.isRelevant range := by
  obtain ⟨depth, hdepth⟩ := hafter.rooted hn
  -- the induction is on the depth in the new tree: each new node has a fresh status, up to the
  -- range
  induction depth generalizing x n with
  | zero =>
    obtain rfl : x = t.root := hdepth
    obtain ⟨m, hm, _⟩ := h.connected.root_live
    cases hnone.symm.trans hm
  | succ depth ih =>
    obtain ⟨hstatus, _, p, hp, hcases⟩ := new_insertInstances h.arena hnone hn hrange
    have hparent : (t.insertInstances range place count template).parent x = some p :=
      (parent_of_get? hn).trans hp
    have hflag : (t.insertInstances range place count template).hasRelevance x = true := by
      simp [hasRelevance, hn, hstatus]
    rw [hafter.isRelevant_child hparent, hflag, Bool.true_and]
    rcases hcases with rfl | hpnone
    · exact isRelevant_insertInstances h hafter hrange
    · obtain ⟨q, hq, hdepth⟩ := hdepth
      obtain rfl : p = q := Option.some.inj (hparent.symm.trans hq)
      obtain ⟨m, hm⟩ := hafter.get?_parent hparent
      exact ih hpnone hm hdepth

end

end Tree

/-- The range to which a request adds instances. -/
def Request.target? : Request → Option NodeId
  | addInstances range _ _ | addInstancesFrom range _ _ _ => some range
  | _ => none

namespace Form

variable {f g : Form} {r : Request} {range : NodeId}

theorem grown_eq {reference : String} {after : Option Int} {count : Nat} {template : Definition}
    (h : f.grown range reference after count template = .ok g) :
    ∃ place, g = marked { f with tree := f.tree.insertInstances range place count template } := by
  unfold grown at h
  dsimp only at h
  split at h
  · exact nomatch h
  · exact ⟨_, (Except.ok.inj h).symm⟩

/-- What is added is added to the range that the request names. -/
theorem exists_of_begun_target (h : f.begun r = .ok g) (hr : r.target? = some range) :
    f.tree.isRange range ∧ ∃ place count template,
      g = marked { f with tree := f.tree.insertInstances range place count template } := by
  unfold begun at h
  cases r with
  | addInstances x after count =>
    obtain rfl : x = range := Option.some.inj hr
    obtain ⟨reference, _, h⟩ := ok_of_bind h
    split at h
    · exact nomatch h
    next template htemplate =>
      obtain ⟨place, heq⟩ := grown_eq h
      exact ⟨isRange_of_template? htemplate, place, count, template, heq⟩
  | addInstancesFrom x after count template =>
    obtain rfl : x = range := Option.some.inj hr
    obtain ⟨reference, _, h⟩ := ok_of_bind h
    split at h
    · exact nomatch h
    next htemplate =>
      split at h
      · exact nomatch h
      · obtain ⟨place, heq⟩ := grown_eq h
        exact ⟨isRange_of_template? htemplate, place, count, template, heq⟩
  | setValue | select | deselect | removeInstances | recompute => exact nomatch hr

theorem offers_all (r : Request) : r.Offers fun _ => True := by
  cases r <;> simp [Request.Offers]

theorem begun_of_accepted (h : (r.action.run f).1 = .ok ()) : ∃ g, f.begun r = .ok g := by
  rw [run_action] at h
  cases hbegun : f.begun r with
  | error e => simp [hbegun, after] at h
  | ok g => exact ⟨g, rfl⟩

/-- A node that an accepted request has made is empty where it is not relevant, unless its range was
not relevant before: then it may hold what a new node of its definition holds. -/
theorem isEmpty_or_initial_of_added (h : f.Reachable fun _ => True)
    (haccepted : (r.action.run f).1 = .ok ()) (hr : r.target? = some range) {x : NodeId}
    (hnew : f.tree.contains x = false) {c : Content}
    (hc : (f.perform r).tree.content? x = some c)
    (hoff : (f.perform r).tree.isRelevant x = false) :
    c.isEmpty ∨ f.tree.isRelevant range = false ∧
      ∃ d, (f.perform r).tree.definition? x = some d ∧ c = .initial d := by
  obtain ⟨g, hbegun⟩ := begun_of_accepted haccepted
  have hperform : f.perform r = g.recalculate := by rw [perform_eq, hbegun]
  have hready := h.ready.1
  have hg : g.Ready fun _ => True := (hready.begins (offers_all r) (begins_of_begun hbegun)).1
  have hconnected : g.start.tree.Connected := hg.sound.connected
  have hclears : g.tree.Clears (f.perform r).tree := by
    rw [hperform]
    exact Pass.clears_runUpTo hconnected g.logic.outcome _
  obtain ⟨hrange, place, count, template, rfl⟩ := exists_of_begun_target hbegun hr
  have hlive : ∃ n, f.tree.get? range = some n := by
    obtain ⟨n, hn, _⟩ := Tree.isRange_iff.mp hrange
    exact ⟨n, hn⟩
  have hnone : f.tree.get? x = none := by
    cases hx : f.tree.get? x with
    | none => rfl
    | some n => exact nomatch hnew.symm.trans (Arena.contains_iff.mpr ⟨n, hx⟩)
  -- a node that is not relevant at the end is empty, or it was not relevant at the start of the
  -- pass and is as it was made
  refine (hclears.kept x c hc hoff).imp_right fun ⟨hoff, hc⟩ => ?_
  obtain ⟨n, hn, rfl⟩ := Option.map_eq_some_iff.mp hc
  have hafter : (f.tree.insertInstances range place count template).Connected := hconnected
  refine ⟨?_, n.definition, ?_, ?_⟩
  · exact (Tree.isRelevant_new hready.sound hafter hlive hnone hn).symm.trans hoff
  · rw [hclears.definition?_eq]
    exact congrArg (Option.map fun n => n.definition) hn
  · exact (Tree.new_insertInstances hready.sound.arena hnone hn hlive).2.1

end Form

/-! ## Instances in a hidden group -/

/-- The group `g` is never relevant; the instances of the repeat in it have a default. -/
def Definition.attic : Definition :=
  .root ⟨"/f", "f", {}, none, none⟩ [
    .group ⟨"/f/g", "g", { relevant := some "''" }, none, none⟩ [
      .range ⟨"/f/g/r", "r", {}, none, none⟩
        (.inst ⟨"/f/g/r", "r", {}, none, none⟩ [
          .value ⟨"/f/g/r/x", "x", {}, none, none⟩ "d"]) []]]

def RuleBook.attic : RuleBook :=
  [("/f/g/r/x", {}), ("/f/g/r", {}),
    ("/f/g", { expressions := [(.relevant, .text "")] }),
    ("/f", {})]

set_option maxRecDepth 20000 in
theorem RuleBook.ofDefinition_attic : RuleBook.ofDefinition .attic = .ok .attic := by rfl

namespace Form

def attic : Form := (opened .attic {} .epoch .attic).marked.recalculate

theorem reachable_attic : attic.Reachable fun _ => True :=
  .load rfl (fun _ _ => trivial) (load_of_ofDefinition RuleBook.ofDefinition_attic {} .epoch)

def atticRequest : Request := .addInstances ⟨2, 0⟩ none 1

theorem added_attic : (atticRequest.action.run attic).1 = .ok () ∧
    attic.tree.contains ⟨4, 0⟩ = false ∧
    (attic.perform atticRequest).tree.content? ⟨4, 0⟩ = some (.text "d") ∧
    (attic.perform atticRequest).tree.isRelevant ⟨4, 0⟩ = false := by
  refine ⟨?_, ?_, ?_, ?_⟩ <;> decide +kernel

theorem isEmpty_or_initial_of_added_attic :
    (Content.text "d").isEmpty ∨ attic.tree.isRelevant ⟨2, 0⟩ = false ∧
      ∃ d, (attic.perform atticRequest).tree.definition? ⟨4, 0⟩ = some d ∧
        Content.text "d" = .initial d := by
  obtain ⟨haccepted, hnew, hc, hoff⟩ := added_attic
  exact isEmpty_or_initial_of_added reachable_attic haccepted rfl hnew hc hoff

/-- New nodes that are not relevant need not be empty. -/
theorem added_not_isEmpty : ¬ ∀ (f : Form) (r : Request) (range x : NodeId) (c : Content),
    f.Reachable (fun _ => True) → (r.action.run f).1 = .ok () → r.target? = some range →
    f.tree.contains x = false → (f.perform r).tree.content? x = some c →
    (f.perform r).tree.isRelevant x = false → c.isEmpty := by
  intro hall
  obtain ⟨haccepted, hnew, hc, hoff⟩ := added_attic
  have hempty := hall attic atticRequest ⟨2, 0⟩ ⟨4, 0⟩ _ reachable_attic haccepted rfl hnew hc hoff
  exact nomatch hempty

end Form

end ReactiveForm
