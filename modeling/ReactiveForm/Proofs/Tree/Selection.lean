import ReactiveForm.Proofs.Definition.Defaults
import ReactiveForm.Proofs.Schedule.Nodes
import ReactiveForm.Proofs.Tree.Identity

/-!
# Legal selections

A selection is legal when it repeats no value, has one value at most in single mode, and has only
values that the current items offer, where items are declared. What is selected on behalf of anyone
is brought into this form on the way into the tree, whatever the node has held before.
-/

set_option autoImplicit false

namespace ReactiveForm

/-- The mode of a selection. -/
def Definition.mode? : Definition → Option SelectMode
  | .select _ mode _ _ _ => some mode
  | _ => none

namespace Node

/-- The values that are selected. -/
def selected (n : Node) : List String :=
  match n.content with
  | .selection values => values
  | _ => []

/-- The current items offer every value that is selected. -/
def Offered (n : Node) : Prop := ∀ v ∈ n.selected, ∃ i ∈ n.status.items, i.value = v

/-- What is selected is legal, where the definition is not to blame. Computed items count as soon as
some have been found. -/
structure Legal (found : Prop) (n : Node) : Prop where
  nodup : n.definition.Unrepeated → n.selected.Nodup
  single : n.definition.mode? = some .single → n.selected.length ≤ 1
  static : n.definition.items ≠ [] → n.Offered
  computed : n.definition.itemset.isSome → found → n.Offered

variable {n : Node} {found : Prop}

theorem Legal.mono {found' : Prop} (h : n.Legal found) (hfound : found' → found) :
    n.Legal found' :=
  ⟨h.nodup, h.single, h.static, fun hitemset hfound' => h.computed hitemset (hfound hfound')⟩

/-- Nothing selected is always legal. -/
theorem legal_of_nil (h : n.selected = []) : n.Legal found := by
  have hoffered : n.Offered := by
    intro v hv
    rw [h] at hv
    exact absurd hv List.not_mem_nil
  refine ⟨?_, ?_, fun _ => hoffered, fun _ _ => hoffered⟩
  · intro _
    rw [h]
    exact List.nodup_nil
  · intro _
    rw [h]
    exact Nat.zero_le 1

/-- A selection of values that are offered, of which the mode may take the first. -/
theorem legal_of_kept {header : Header} {mode : SelectMode} {default : List String}
    {items : List Item} {itemset : Option Itemset} {kept : List String}
    (hc : n.content = .selection (match mode with
      | .single => kept.take 1
      | .multiple => kept))
    (hd : n.definition = .select header mode default items itemset)
    (hnodup : n.definition.Unrepeated → kept.Nodup)
    (hstatic : items ≠ [] → ∀ v ∈ kept, ∃ i ∈ n.status.items, i.value = v)
    (hcomputed : itemset.isSome → found → ∀ v ∈ kept, ∃ i ∈ n.status.items, i.value = v) :
    n.Legal found := by
  -- what is selected is part of what was kept, so every condition passes to it
  have hsub : n.selected.Sublist kept := by
    unfold selected
    rw [hc]
    cases mode with
    | single => exact List.take_sublist 1 kept
    | multiple => exact List.Sublist.refl kept
  refine ⟨fun hdefault => (hnodup hdefault).sublist hsub, ?_, ?_, ?_⟩
  · intro hmode
    have hmode : mode = .single := by simpa [hd, Definition.mode?] using hmode
    unfold selected
    rw [hc, hmode]
    exact List.length_take_le 1 kept
  · intro hitems v hv
    rw [hd] at hitems
    exact hstatic hitems v (hsub.subset hv)
  · intro hitemset hfound v hv
    rw [hd] at hitemset
    exact hcomputed hitemset hfound v (hsub.subset hv)

/-- Of values without repetitions, a legal selection is made. -/
theorem legal_selecting {values : List String} (hn : n.definition.Unrepeated → n.selected.Nodup)
    (hvalues : n.definition.Unrepeated → values.Nodup) :
    ({ n with content := n.selecting values } : Node).Legal True := by
  obtain ⟨definition, parent, children, content, status⟩ := n
  cases definition with
  | select header mode default items itemset =>
    cases content with
    | inner | text => exact legal_of_nil rfl
    | selection before =>
      have hoffers : ∀ v ∈ values.filter fun v => status.items.any (·.value == v),
          ∃ i ∈ status.items, i.value = v := by
        intro v hv
        simpa using (List.mem_filter.mp hv).2
      refine legal_of_kept rfl rfl ?_ ?_ ?_
      · intro hdefault
        split
        · exact hvalues hdefault
        · exact (hvalues hdefault).filter _
      · intro hitems
        rw [if_neg (by simp [hitems])]
        exact hoffers
      · intro hitemset _
        rw [if_neg (by simp [Option.isSome_iff_ne_none.mp hitemset])]
        exact hoffers
  | root | group | range | inst | value =>
    exact ⟨hn, nofun, fun hitems => absurd rfl hitems, nofun⟩

theorem legal_writing (hn : n.definition.Unrepeated → n.selected.Nodup) (text : String) :
    ({ n with content := n.writing text } : Node).Legal True := by
  cases hc : n.content with
  | inner | text => exact legal_of_nil (by simp [selected, writing, hc])
  | selection before =>
    have hwriting : n.writing text = n.selecting (Text.words text).eraseDups := by
      simp only [writing, hc]
    rw [hwriting]
    exact legal_selecting hn fun _ => nodup_eraseDups _

theorem legal_revising (hn : n.definition.Unrepeated → n.selected.Nodup) :
    ({ n with content := n.revising } : Node).Legal True := by
  cases hc : n.content with
  | inner | text => exact legal_of_nil (by simp [selected, revising, hc])
  | selection before =>
    have hrevising : n.revising = n.selecting before := by simp only [revising, hc]
    have hbefore : n.selected = before := by simp only [selected, hc]
    rw [hrevising]
    exact legal_selecting hn (hbefore ▸ hn)

theorem legal_emptying (n : Node) : ({ n with content := n.emptying } : Node).Legal True := by
  cases hc : n.content <;> exact legal_of_nil (by simp [selected, emptying, hc])

/-- A new node selects nothing that is not legal. -/
theorem legal_fresh (hcontent : n.content = .initial n.definition)
    (hitems : n.status.items = n.definition.items) : n.Legal False := by
  cases hd : n.definition with
  | select header mode default items itemset =>
    rw [hd] at hcontent hitems
    have hnodup (hdefault : n.definition.Unrepeated) : default.Nodup := by
      rw [hd] at hdefault
      exact hdefault
    refine legal_of_kept hcontent hd (fun hdefault => (hnodup hdefault).filter _) ?_ nofun
    intro hne v hv
    obtain ⟨_, hoffered⟩ := List.mem_filter.mp hv
    have hempty : items.isEmpty = false := by simpa using hne
    rw [hempty, Bool.false_or] at hoffered
    rw [hitems]
    simpa [Definition.items] using hoffered
  | root | group | range | inst | value =>
    refine legal_of_nil ?_
    simp [selected, hcontent, hd, Content.initial]

/-- The items are the only part of the status that has a bearing on what is legal. -/
theorem Legal.status {status : Status} (h : n.Legal found) (hitems : status.items = n.status.items) :
    ({ n with status } : Node).Legal found := by
  have hoffered (hn : n.Offered) : ({ n with status } : Node).Offered := by
    intro v hv
    change ∃ i ∈ status.items, i.value = v
    rw [hitems]
    exact hn v hv
  exact ⟨h.nodup, h.single, fun hstatic => hoffered (h.static hstatic),
    fun hitemset hfound => hoffered (h.computed hitemset hfound)⟩

theorem Legal.storing (h : n.Legal found) (kind : OutputKind) (v : OutputValue) :
    (n.storing kind v).Legal found := by
  unfold Node.storing
  split
  · exact h.status rfl
  · exact h.status rfl
  · exact h.status rfl
  · exact h.status rfl
  · exact (legal_writing h.nodup _).mono fun _ => trivial
  next list =>
    let next : Node := { n with status.items := list }
    have hnodup : next.definition.Unrepeated → next.selected.Nodup := h.nodup
    exact (legal_revising hnodup).mono fun _ => trivial
  · exact h

/-- Whatever a pass does to a node leaves a legal selection. -/
theorem Legal.change {book : RuleBook} {n' : Node} (h : n.Legal found) (hchange : Change book n n') :
    n'.Legal found := by
  cases hchange with
  | stored v => exact h.storing _ v
  | failed => exact h.status rfl
  | emptied => exact (legal_emptying n).mono fun _ => trivial

/-- Where a revision finds nothing to drop, what is selected is legal. -/
theorem legal_of_revising_eq (hn : n.definition.Unrepeated → n.selected.Nodup)
    (h : n.revising = n.content) : n.Legal True := by
  have hlegal := legal_revising hn
  rwa [h] at hlegal

end Node

namespace Tree

/-- All selections in the tree are legal. For the nodes of which `found` holds, the items of their
itemsets have been found. -/
def Legal (found : NodeId → Prop) (t : Tree) : Prop :=
  ∀ id n, t.get? id = some n → n.Legal (found id)

variable {t t' : Tree} {found : NodeId → Prop}

theorem legal_ofDefinition (d : Definition) : (ofDefinition d).Legal fun _ => False := by
  intro id n hn
  have hgrown := Arena.grown_plant none Arena.sound_empty d False.elim
  refine Node.legal_fresh (hgrown.content rfl hn) ?_
  rw [hgrown.status rfl hn]

theorem Legal.develops {book : RuleBook} (h : t.Legal found) (hdevelops : t.Develops book t') :
    t'.Legal found := by
  intro id n' hn'
  obtain ⟨n, hn, hchanges⟩ := hdevelops id n' hn'
  exact hchanges.keep (fun hchange hlegal => hlegal.change hchange) (h id n hn)

theorem Legal.rewrite (h : t.Legal found) {id : NodeId} {content : Node → Content}
    (hcontent : ∀ n, t.get? id = some n → n.Legal (found id) →
      ({ n with content := content n } : Node).Legal True) :
    (t.rewrite id content).2.Legal found := by
  intro x n' hn'
  rw [get?_rewrite] at hn'
  split at hn'
  next hx =>
    obtain ⟨n, hn, rfl⟩ := Option.map_eq_some_iff.mp hn'
    exact (hcontent n hn (h id n hn)).mono fun _ => trivial
  next => exact h x n' hn'

/-- New nodes are legal as they are made. As they take identifiers that nothing has had before, no
items have been found for them. -/
theorem Legal.insertInstances (h : t.Legal found) (ha : t.arena.Sound) {range : NodeId}
    (hrange : t.isRange range) (hknown : ∀ x, found x → t.contains x ∨ t.arena.Spent x)
    (place count : Nat) (template : Definition) :
    (t.insertInstances range place count template).Legal found := by
  intro x n' hn'
  cases hn : t.get? x with
  | some n =>
    obtain ⟨children, hkept, _⟩ := kept_insertInstances ha hn range place count template
    obtain rfl := Option.some.inj (hkept.symm.trans hn')
    have hlegal := h x n hn
    exact ⟨hlegal.nodup, hlegal.single, hlegal.static, hlegal.computed⟩
  | none =>
    obtain ⟨r, hr, _⟩ := isRange_iff.mp hrange
    obtain ⟨hstatus, hcontent, _⟩ := new_insertInstances ha hn hn' ⟨r, hr⟩
    refine (Node.legal_fresh hcontent (by rw [hstatus])).mono fun hfound => ?_
    rcases hknown x hfound with hlive | hspent
    · obtain ⟨n, hlive⟩ := contains_iff.mp hlive
      cases hn.symm.trans hlive
    · have hdead := (hspent.ages (t.ages_insertInstances range place count template)).not_contains
      have hlive := Arena.contains_iff.mpr ⟨n', hn'⟩
      cases hdead.symm.trans hlive

theorem Legal.removeInstances (h : t.Legal found) (range : NodeId) (place count : Nat) :
    (t.removeInstances range place count).2.Legal found := by
  intro x n' hn'
  rw [get?_removeInstances] at hn'
  split at hn'
  · cases hn'
  · obtain ⟨n, hn, rfl⟩ := Option.map_eq_some_iff.mp hn'
    have hlegal := h x n hn
    split
    · exact ⟨hlegal.nodup, hlegal.single, hlegal.static, hlegal.computed⟩
    · exact hlegal

/-- Once its items have been found, what a selection has is held to them. -/
theorem Legal.of_holds (h : t.Legal found) {id : NodeId} {n : Node}
    {list : List Item} (hn : t.get? id = some n) (hholds : n.Holds .itemset (.ok (.items list))) :
    t.Legal fun x => found x ∨ x = id := by
  intro x m hm
  have hlegal := h x m hm
  by_cases hx : x = id
  · subst hx
    obtain rfl : n = m := Option.some.inj (hn.symm.trans hm)
    exact (Node.legal_of_revising_eq hlegal.nodup hholds.2.2).mono fun _ => trivial
  · exact hlegal.mono fun hfound => hfound.resolve_right hx

end Tree

end ReactiveForm
