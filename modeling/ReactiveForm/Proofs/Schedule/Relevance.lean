import ReactiveForm.Function.Builtin
import ReactiveForm.Proofs.Schedule.Termination

/-!
# What a pass leaves in nodes that are not relevant

A pass keeps nothing in a node that it makes irrelevant, whichever node above brings that about and
however often relevance comes back in between: only relevant nodes are written to, and where a node
loses its relevance, all below it is emptied at once. So what a node that is not relevant holds at
the end, it has held without being relevant from the start.
-/

set_option autoImplicit false

namespace ReactiveForm

/-- Whether nothing is entered: no text, or no selected value. -/
def Content.isEmpty : Content → Bool
  | .inner => true
  | .text value => value.isEmpty
  | .selection values => values.isEmpty

theorem Node.isEmpty_emptying (n : Node) : n.emptying.isEmpty := by
  unfold emptying
  split <;> rfl

namespace Tree

/-- In the later tree, nodes that are not relevant are empty, or they hold what they held in the
earlier tree, where they were not relevant either. -/
structure Clears (t t' : Tree) : Prop extends SameLinks t t' where
  kept : ∀ id c, t'.content? id = some c → t'.isRelevant id = false →
    c.isEmpty ∨ t.isRelevant id = false ∧ t.content? id = some c

variable {t t' t'' : Tree}

theorem Clears.refl (t : Tree) : t.Clears t where
  toSameLinks := .refl t
  kept _ _ hc hoff := .inr ⟨hoff, hc⟩

theorem Clears.trans (h : t.Clears t') (h' : t'.Clears t'') : t.Clears t'' where
  toSameLinks := h.toSameLinks.trans h'.toSameLinks
  kept id c hc hoff := by
    rcases h'.kept id c hc hoff with hempty | ⟨hoff, hc⟩
    · exact .inl hempty
    · exact h.kept id c hc hoff

theorem SameLinks.isRelevant_eq (h : t.SameLinks t')
    (hflags : ∀ id, t'.hasRelevance id = t.hasRelevance id) (id : NodeId) :
    t'.isRelevant id = t.isRelevant id := by
  simp only [isRelevant, isReachable, h.ancestors_eq, funext hflags]

theorem isRelevant_iff {t : Tree} {id : NodeId} :
    t.isRelevant id ↔ ∀ z ∈ id :: t.ancestors id, t.hasRelevance z := by
  simp [isRelevant, isReachable]

/-- More conditions that hold make no node irrelevant. -/
theorem SameLinks.isRelevant_mono (h : t.SameLinks t')
    (hflags : ∀ id, t.hasRelevance id → t'.hasRelevance id) {id : NodeId}
    (hid : t.isRelevant id) : t'.isRelevant id := by
  simp only [isRelevant, isReachable, h.ancestors_eq, Bool.and_eq_true, List.all_eq_true]
    at hid ⊢
  exact ⟨hflags id hid.1, fun z hz => hflags z (hid.2 z hz)⟩

/-- While no condition changes, relevant nodes may be written to and all nodes may be emptied. -/
theorem Clears.of_contents (h : t.SameLinks t')
    (hflags : ∀ id, t'.hasRelevance id = t.hasRelevance id)
    (hcontents : ∀ id c, t'.content? id = some c →
      c.isEmpty ∨ t.isRelevant id ∨ t.content? id = some c) : t.Clears t' where
  toSameLinks := h
  kept id c hc hoff := by
    rw [h.isRelevant_eq hflags] at hoff
    rcases hcontents id c hc with hempty | hon | hsame
    · exact .inl hempty
    · exact nomatch hoff.symm.trans hon
    · exact .inr ⟨hoff, hsame⟩

/-- While no content changes, conditions may begin to hold. -/
theorem Clears.of_flags (h : t.SameLinks t')
    (hflags : ∀ id, t.hasRelevance id → t'.hasRelevance id)
    (hcontents : ∀ id, t'.content? id = t.content? id) : t.Clears t' where
  toSameLinks := h
  kept id c hc hoff := by
    rw [hcontents] at hc
    refine .inr ⟨?_, hc⟩
    by_contra hon
    have hafter := h.isRelevant_mono hflags (Bool.of_not_eq_false hon)
    exact nomatch hoff.symm.trans hafter

end Tree

namespace Pass

variable {book : RuleBook} {evaluate : Tree → Output → Outcome} {p : Pass} {o : Output}

/-! ## Changes without loss of relevance -/

theorem content?_setStatus (p : Pass) (id x : NodeId) (g : Status → Status) :
    (p.setStatus id g).tree.content? x = p.tree.content? x := by
  rw [Tree.content?, Tree.content?, get?_setStatus]
  by_cases hx : x = id
  · rw [if_pos hx, hx, Option.map_map]
    rfl
  · rw [if_neg hx]

theorem clears_setStatus {g : Status → Status} (hg : ∀ s, (g s).relevant = s.relevant)
    (id : NodeId) : p.tree.Clears (p.setStatus id g).tree :=
  .of_contents (sameLinks_setStatus p id g) (hasRelevance_setStatus hg id) fun x _ hc =>
    .inr (.inr ((content?_setStatus p id x g).symm.trans hc))

theorem sameLinks_wrote (p : Pass) (id : NodeId) (f : Node → Content) :
    p.tree.SameLinks (p.wrote id (p.tree.rewrite id f)).tree :=
  Tree.sameLinks_rewrite p.tree id f

theorem content?_wrote (p : Pass) {id x : NodeId} (hx : x ≠ id) (f : Node → Content) :
    (p.wrote id (p.tree.rewrite id f)).tree.content? x = p.tree.content? x := by
  rw [Tree.content?, get?_wrote, if_neg hx, Tree.content?]

theorem clears_wrote {id : NodeId} (hon : p.tree.isRelevant id) (f : Node → Content) :
    p.tree.Clears (p.wrote id (p.tree.rewrite id f)).tree := by
  refine .of_contents (sameLinks_wrote p id f) (fun x => hasRelevance_wrote id x f) ?_
  intro x c hc
  by_cases hx : x = id
  · exact .inr (.inl (hx ▸ hon))
  · exact .inr (.inr ((content?_wrote p hx f).symm.trans hc))

/-! ## Loss of relevance -/

theorem sameLinks_clear (ids : List NodeId) (p : Pass) :
    p.tree.SameLinks (ids.foldl (fun p id => p.wrote id (p.tree.clear id)) p).tree := by
  induction ids generalizing p with
  | nil => exact .refl p.tree
  | cons id ids ih =>
    rw [List.foldl_cons, Tree.clear_eq]
    exact (sameLinks_wrote p id Node.emptying).trans (ih _)

theorem sameLinks_clearBelow (p : Pass) (id : NodeId) :
    p.tree.SameLinks (p.clearBelow id).tree :=
  sameLinks_clear _ p

theorem content?_clearBelow {id x : NodeId} {c : Content}
    (hc : (p.clearBelow id).tree.content? x = some c) :
    c.isEmpty ∨ x ∉ p.tree.subtree id ∧ p.tree.content? x = some c := by
  rw [Tree.content?, clearBelow, get?_clear] at hc
  split at hc
  next =>
    rw [Option.map_map] at hc
    obtain ⟨n, _, rfl⟩ := Option.map_eq_some_iff.mp hc
    exact .inl n.isEmpty_emptying
  next hx => exact .inr ⟨hx, hc⟩

theorem clears_clearBelow (p : Pass) (id : NodeId) : p.tree.Clears (p.clearBelow id).tree :=
  .of_contents (sameLinks_clearBelow p id) (hasRelevance_clearBelow id) fun _ _ hc =>
    (content?_clearBelow hc).imp_right fun ⟨_, hsame⟩ => .inr hsame

variable (h : p.tree.Connected) (hlive : ∃ n, p.tree.get? o.node = some n)

include h hlive

/-- A node loses its relevance together with all that is below it, which is emptied. -/
theorem clears_flagged_false :
    p.tree.Clears ((p.flagged o.node false).clearBelow o.node).tree where
  toSameLinks := (sameLinks_setStatus p _ _).trans (sameLinks_clearBelow _ _)
  kept x c hc hoff := by
    have hflag : p.tree.SameLinks (p.flagged o.node false).tree := sameLinks_setStatus p _ _
    refine (content?_clearBelow hc).imp_right fun ⟨hout, hsame⟩ => ⟨?_, ?_⟩
    · -- The node is not among those above `x`, so none of these has changed.
      rw [hflag.subtree_eq, h.mem_subtree_iff_mem_ancestors hlive] at hout
      rw [← hoff, Bool.eq_iff_iff, Tree.isRelevant_iff, Tree.isRelevant_iff,
        (hflag.trans (sameLinks_clearBelow _ _)).ancestors_eq]
      refine forall₂_congr fun z hz => ?_
      have hz : z ≠ o.node := fun heq => hout (heq ▸ hz)
      rw [hasRelevance_clearBelow, hasRelevance_flagged false hz]
    · exact (content?_setStatus p _ x _).symm.trans hsame

omit h in
/-- Nothing is lost where the condition of a node begins to hold, or where it did not hold. -/
theorem clears_flagged {b : Bool} (hb : p.tree.hasRelevance o.node → b = true) :
    p.tree.Clears (p.flagged o.node b).tree := by
  refine .of_flags (sameLinks_setStatus p _ _) ?_ fun x => content?_setStatus p _ x _
  intro x hx
  by_cases heq : x = o.node
  · rw [heq, hasRelevance_flagged_self hlive]
    exact hb (heq ▸ hx)
  · rwa [hasRelevance_flagged b heq]

theorem clears_setRelevant (hreach : p.tree.isReachable o.node) (b : Bool) :
    p.tree.Clears (p.setRelevant book o b).tree := by
  have hbefore : p.tree.isRelevant o.node = p.tree.hasRelevance o.node := by
    rw [Tree.isRelevant, hreach, Bool.and_true]
  rw [setRelevant_eq, hbefore]
  cases b with
  | true =>
    have hflag : p.tree.Clears (p.flagged o.node true).tree := clears_flagged hlive fun _ => rfl
    split
    · exact hflag.trans (clears_clearBelow _ _)
    · exact hflag
    · exact hflag
  | false =>
    have hafter : (p.flagged o.node false).tree.isRelevant o.node = false := by
      rw [Tree.isRelevant, hasRelevance_flagged_self hlive, Bool.false_and]
    rw [hafter]
    cases hrelevance : p.tree.hasRelevance o.node with
    | true => exact clears_flagged_false h hlive
    | false => exact clears_flagged hlive fun hon => absurd hon (by simp [hrelevance])

/-! ## Passes -/

theorem clears_apply (hwanted : p.isSuppressed o = false) (v : OutputValue) :
    p.tree.Clears (p.apply book o v).tree := by
  have hon (hkind : o.kind ≠ .bind .relevant) : p.tree.isRelevant o.node := by
    unfold isSuppressed at hwanted
    split at hwanted
    next heq => exact absurd heq hkind
    next => exact (Bool.not_eq_false' _).mp hwanted
  -- contents are written for wanted outputs only, hence to relevant nodes
  unfold apply
  split
  next hkind =>
    refine clears_setRelevant h hlive ?_ _
    simpa [isSuppressed, hkind] using hwanted
  next => exact clears_setStatus (fun _ => by rfl) _
  next => exact clears_setStatus (fun _ => by rfl) _
  next => exact clears_setStatus (fun _ => by rfl) _
  next hkind =>
    rw [Tree.write_eq]
    exact clears_wrote (hon (by simp [hkind])) _
  next list hkind =>
    have hitems : p.tree.Clears (p.setStatus o.node fun s => { s with items := list }).tree :=
      clears_setStatus (fun _ => by rfl) _
    refine hitems.trans ?_
    simp only [Tree.reviseSelection_eq]
    refine clears_wrote ?_ _
    rw [hitems.isRelevant_eq (hasRelevance_setStatus (fun _ => by rfl) _)]
    exact hon (by simp [hkind])
  next => exact .refl p.tree

theorem clears_compute (evaluate : Tree → Output → Outcome) (hwanted : p.isSuppressed o = false) :
    p.tree.Clears (p.compute book evaluate o).tree := by
  have hfailure (message : Option String) :
      p.tree.Clears ((p.noted evaluate o).setFailure o message).tree :=
    clears_setStatus (p := p.noted evaluate o) (fun _ => by rfl) _
  rw [compute_eq]
  split
  next value _ =>
    have hclean := hfailure none
    refine hclean.trans (clears_apply (hclean.connected h) ?_ ?_ value)
    · obtain ⟨n, hn⟩ := hlive
      rcases hclean.get?_cases o.node with ⟨hnone, _⟩ | ⟨_, n', _, hn', _⟩
      · cases hnone.symm.trans hn
      · exact ⟨n', hn'⟩
    · exact (isSuppressed_setFailure (p.noted evaluate o) o none o).trans hwanted
  next => exact hfailure _

omit hlive in
theorem clears_step (evaluate : Tree → Output → Outcome) (o : Output) :
    p.tree.Clears (p.step book evaluate o).tree := by
  rcases p.step_cases o with ⟨heq, _⟩ | ⟨heq, _⟩ | ⟨heq, hlive, _, hwanted, _⟩
  · rw [heq]
    exact .refl p.tree
  · rw [heq]
    exact .refl p.tree
  · rw [heq]
    exact clears_compute (p := p.unmarked o) h (Arena.contains_iff.mp hlive) evaluate hwanted

omit hlive in
theorem clears_runUpTo (evaluate : Tree → Output → Outcome) (n : Nat) :
    p.tree.Clears (runUpTo book evaluate n p).tree := by
  induction n generalizing p with
  | zero => exact .refl p.tree
  | succ n ih =>
    rw [runUpTo]
    split
    next => exact .refl p.tree
    next o _ =>
      have hstep : p.tree.Clears (p.step book evaluate o).tree := clears_step h evaluate o
      exact hstep.trans (ih (hstep.connected h))

omit hlive in
/-- At the end of a pass, a node that is not relevant is empty, unless it was not relevant at the
start and has kept its content. -/
theorem isEmpty_or_kept_of_run (evaluate : Tree → Output → Outcome) {id : NodeId} {c : Content}
    (hc : (p.run book evaluate).tree.content? id = some c)
    (hoff : (p.run book evaluate).tree.isRelevant id = false) :
    c.isEmpty ∨ p.tree.isRelevant id = false ∧ p.tree.content? id = some c :=
  (clears_runUpTo h evaluate _).kept id c hc hoff

end Pass

/-! ## A group that is not relevant -/

/-- The group `g` waits for an `x` in `a`; its node `b` has a default. -/
def Definition.veil : Definition :=
  .root ⟨"/f", "f", {}, none, none⟩ [
    .value ⟨"/f/a", "a", {}, none, none⟩ "",
    .group ⟨"/f/g", "g", { relevant := some "/f/a = 'x'" }, none, none⟩ [
      .value ⟨"/f/g/b", "b", {}, none, none⟩ "y"]]

def Logic.veil : Logic where
  rules := [
    ("/f/g", { expressions := [(.relevant, .binary .eq
      (.path .root [⟨.child, .name "f", []⟩, ⟨.child, .name "a", []⟩]) (.text "x"))] })]
  library := .builtins

namespace Pass

/-- The first pass over the tree, at its start. -/
def veil : Pass where
  tree := .ofDefinition .veil
  schedule := (Schedule.ofLimit 16).mark [⟨⟨2, 0⟩, .bind .relevant⟩]

theorem isEmpty_or_kept_of_run_veil :
    veil.tree.content? ⟨3, 0⟩ = some (.text "y") ∧ veil.tree.isRelevant ⟨3, 0⟩ ∧
    (veil.run Logic.veil.rules Logic.veil.outcome).tree.content? ⟨3, 0⟩ = some (.text "") ∧
    (veil.run Logic.veil.rules Logic.veil.outcome).tree.isRelevant ⟨3, 0⟩ = false ∧
    ((Content.text "").isEmpty ∨ veil.tree.isRelevant ⟨3, 0⟩ = false ∧
      veil.tree.content? ⟨3, 0⟩ = some (.text "")) := by
  have hsound : (Tree.ofDefinition .veil).Sound False := Tree.sound_ofDefinition nofun
  have hconnected : veil.tree.Connected := hsound.connected
  have hcontent : (veil.run Logic.veil.rules Logic.veil.outcome).tree.content? ⟨3, 0⟩
      = some (.text "") := by decide +kernel
  have hoff : (veil.run Logic.veil.rules Logic.veil.outcome).tree.isRelevant ⟨3, 0⟩ = false := by
    decide +kernel
  exact ⟨by decide, by decide, hcontent, hoff,
    isEmpty_or_kept_of_run hconnected Logic.veil.outcome hcontent hoff⟩

end Pass

end ReactiveForm
