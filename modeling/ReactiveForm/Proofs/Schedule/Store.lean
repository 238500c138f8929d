import ReactiveForm.Proofs.Schedule.Marks
import ReactiveForm.Proofs.Tree.Entry
import ReactiveForm.Schedule.Pass

/-!
# What storing a result changes

A result goes into the node of its output: into the status, or into the content. All that is stored
for other outputs stays as it is, unless these outputs are marked or no longer wanted, and where a
content changes, the outputs that have read it are marked.
-/

set_option autoImplicit false

namespace ReactiveForm

/-- No rules compute both the content of a node and its items. -/
def RuleBook.Divided (book : RuleBook) : Prop :=
  ∀ reference rules, Table.get? book reference = some rules →
    OutputKind.bind .calculate ∈ rules.kinds → OutputKind.itemset ∉ rules.kinds

namespace RuleBook

variable {book : RuleBook} {t t' : Tree}

/-- What holds of all entries holds of all that is found. -/
theorem forall_get? {Q : Rules → Prop} (h : ∀ entry ∈ book, Q entry.2) (reference : String)
    (rules : Rules) (hget : Table.get? book reference = some rules) : Q rules :=
  h _ (Schedule.mem_of_get? hget)

theorem mem_outputsAt {q : Output} {id : NodeId} :
    q ∈ book.outputsAt t id ↔ q.node = id ∧ ∃ rules, book.rulesAt t id = some rules ∧
      q.kind ∈ rules.kinds := by
  unfold outputsAt
  cases book.rulesAt t id with
  | none => simp
  | some rules =>
    simp only [List.mem_map, Option.some.injEq, exists_eq_left']
    constructor
    · rintro ⟨kind, hkind, rfl⟩
      exact ⟨rfl, hkind⟩
    · rintro ⟨rfl, hkind⟩
      exact ⟨q.kind, hkind, rfl⟩

theorem exists_definition_of_rulesAt {id : NodeId} {rules : Rules}
    (h : book.rulesAt t id = some rules) : ∃ n, t.get? id = some n ∧ n.definition.type ≠ .range ∧
      Table.get? book n.definition.reference = some rules := by
  unfold rulesAt Tree.definition? at h
  cases hn : t.get? id with
  | none => simp [hn] at h
  | some n =>
    by_cases hr : n.definition.type = .range
    · simp [hn, hr] at h
    · exact ⟨n, rfl, hr, by simpa [hn, hr] using h⟩

theorem exists_get?_of_mem {q : Output} {id : NodeId} (h : q ∈ book.outputsAt t id) :
    ∃ n, t.get? q.node = some n := by
  obtain ⟨rfl, rules, hrules, _⟩ := mem_outputsAt.mp h
  obtain ⟨n, hn, _⟩ := exists_definition_of_rulesAt hrules
  exact ⟨n, hn⟩

/-- The outputs of all live nodes are those of each of them. -/
theorem mem_outputs (hc : t.Connected) {q : Output} :
    q ∈ book.outputs t ↔ q ∈ book.outputsAt t q.node := by
  constructor
  · intro hq
    obtain ⟨id, _, hq⟩ := List.mem_flatMap.mp hq
    obtain ⟨rfl, _⟩ := mem_outputsAt.mp hq
    exact hq
  · intro hq
    have hnode : q.node ∈ t.nodes := hc.mem_nodes_iff.mpr (exists_get?_of_mem hq)
    exact List.mem_flatMap.mpr ⟨q.node, hnode, hq⟩

theorem rulesAt_of_definition? {id : NodeId} (h : t'.definition? id = t.definition? id) :
    book.rulesAt t' id = book.rulesAt t id := by
  unfold rulesAt
  rw [h]

theorem outputsAt_of_definition? {id : NodeId} (h : t'.definition? id = t.definition? id) :
    book.outputsAt t' id = book.outputsAt t id := by
  unfold outputsAt
  rw [rulesAt_of_definition? h]

theorem rulesAt_eq (h : t.SameFrame t') (id : NodeId) : book.rulesAt t' id = book.rulesAt t id :=
  rulesAt_of_definition? (h.definition?_eq id)

theorem outputsAt_eq (h : t.SameFrame t') (id : NodeId) :
    book.outputsAt t' id = book.outputsAt t id :=
  outputsAt_of_definition? (h.definition?_eq id)

/-- An output that computes the content or the items of a node is the only one of that sort. -/
theorem Divided.kind_eq (hbook : book.Divided) {o q : Output} {id : NodeId}
    (ho : o ∈ book.outputsAt t id) (hq : q ∈ book.outputsAt t id)
    (hkind : o.kind = .bind .calculate ∨ o.kind = .itemset)
    (hkind' : q.kind = .bind .calculate ∨ q.kind = .itemset) : q = o := by
  obtain ⟨hnode, rules, hrules, hmem⟩ := mem_outputsAt.mp ho
  obtain ⟨hnode', rules', hrules', hmem'⟩ := mem_outputsAt.mp hq
  obtain rfl : rules = rules' := Option.some.inj (hrules.symm.trans hrules')
  obtain ⟨n, _, _, hget⟩ := exists_definition_of_rulesAt hrules
  have hnot := hbook _ _ hget
  obtain ⟨node, kind⟩ := o
  obtain ⟨node', kind'⟩ := q
  obtain rfl : node = id := hnode
  obtain rfl : node' = node := hnode'
  rcases hkind with rfl | rfl <;> rcases hkind' with rfl | rfl
  · rfl
  · exact absurd hmem' (hnot hmem)
  · exact absurd hmem (hnot hmem')
  · rfl

end RuleBook

namespace OutputKind

/-- Whether outputs of the kind have no place for the value. -/
def drops : OutputKind → OutputValue → Bool
  | .bind .relevant, .flag _ => false
  | .bind .readonly, .flag _ => false
  | .bind .required, .flag _ => false
  | .bind .constraint, .flag _ => false
  | .bind .calculate, .text _ => false
  | .itemset, .items _ => false
  | _, _ => true

/-- Where a value goes: to the place of its kind, or nowhere. -/
inductive Lands : OutputKind → OutputValue → Prop where
  | relevant (b : Bool) : Lands (.bind .relevant) (.flag b)
  | readonly (b : Bool) : Lands (.bind .readonly) (.flag b)
  | required (b : Bool) : Lands (.bind .required) (.flag b)
  | constraint (b : Bool) : Lands (.bind .constraint) (.flag b)
  | calculate (s : String) : Lands (.bind .calculate) (.text s)
  | itemset (list : List Item) : Lands .itemset (.items list)
  | dropped {kind : OutputKind} {v : OutputValue} : kind.drops v → Lands kind v

theorem lands (kind : OutputKind) (v : OutputValue) : Lands kind v := by
  rcases kind with (_ | _ | _ | _ | _) | _ <;> cases v <;>
    first | exact .dropped rfl | constructor

end OutputKind

namespace Node

/-- The value is what is stored for outputs of the kind. -/
def Stores (n : Node) : OutputKind → OutputValue → Prop
  | .bind .relevant, .flag b => n.status.relevant = b
  | .bind .readonly, .flag b => n.status.readonly = b
  | .bind .required, .flag b => n.status.required = b
  | .bind .constraint, .flag b => n.status.satisfied = b
  | .bind .calculate, .text s => n.writing s = n.content
  | .itemset, .items list => n.status.items = list ∧ n.revising = n.content
  | _, _ => True

theorem stores_of_drops (n : Node) {kind : OutputKind} {v : OutputValue} (h : kind.drops v) :
    n.Stores kind v := by
  rcases kind with (_ | _ | _ | _ | _) | _ <;> cases v <;> trivial

/-- The result is what has come of outputs of the kind. -/
def Holds (n : Node) (kind : OutputKind) : Except EvalError OutputValue → Prop
  | .ok v => n.status.failures.get kind = none ∧ n.Stores kind v
  | .error e => n.status.failures.get kind = some e.message

/-- What is stored for outputs of the kind in one node is stored in the other. -/
def Passes (kind : OutputKind) (n n' : Node) : Prop :=
  ∀ result, n.Holds kind result → n'.Holds kind result

theorem Passes.refl (kind : OutputKind) (n : Node) : Passes kind n n := fun _ h => h

theorem Passes.trans {kind : OutputKind} {n n' n'' : Node} (h : Passes kind n n')
    (h' : Passes kind n' n'') : Passes kind n n'' :=
  fun r hr => h' r (h r hr)

/-- Outputs other than those that fill the node depend on its status only. -/
theorem passes_content {kind : OutputKind} (h : ¬(kind = .bind .calculate ∨ kind = .itemset))
    (n : Node) (c : Content) : Passes kind n { n with content := c } := by
  intro result hresult
  cases result with
  | error e => exact hresult
  | ok v =>
    refine ⟨hresult.1, ?_⟩
    rcases kind with (_ | _ | _ | _ | _) | _ <;> cases v <;>
      first | exact trivial | exact hresult.2 | exact absurd (.inl rfl) h | exact absurd (.inr rfl) h

theorem passes_failure {kind other : OutputKind} (h : kind ≠ other) (n : Node)
    (message : Option String) :
    Passes kind n { n with status.failures := n.status.failures.set other message } := by
  intro result hresult
  cases result with
  | error e =>
    change (n.status.failures.set other message).get kind = some e.message
    rw [Failures.get_set, if_neg h]
    exact hresult
  | ok v =>
    refine ⟨?_, ?_⟩
    · change (n.status.failures.set other message).get kind = none
      rw [Failures.get_set, if_neg h]
      exact hresult.1
    · have hstores := hresult.2
      rcases kind with (_ | _ | _ | _ | _) | _ <;> cases v <;> exact hstores

/-- The parts of the status are stored for outputs of one kind each; the items also have a bearing
on what is written. -/
theorem passes_status {kind : OutputKind} {n : Node} {status : Status}
    (hfailures : status.failures = n.status.failures)
    (hitems : kind = .bind .calculate ∨ kind = .itemset → status.items = n.status.items)
    (hrelevant : kind = .bind .relevant → status.relevant = n.status.relevant)
    (hreadonly : kind = .bind .readonly → status.readonly = n.status.readonly)
    (hrequired : kind = .bind .required → status.required = n.status.required)
    (hsatisfied : kind = .bind .constraint → status.satisfied = n.status.satisfied) :
    Passes kind n { n with status } := by
  intro result hresult
  cases result with
  | error e =>
    change status.failures.get kind = some e.message
    rwa [hfailures]
  | ok v =>
    obtain ⟨hnone, hstores⟩ := hresult
    refine ⟨by rwa [hfailures], ?_⟩
    -- the items decide what a text or a revision leaves of a selection
    have hselecting (hfills : kind = .bind .calculate ∨ kind = .itemset) (values : List String) :
        ({ n with status } : Node).selecting values = n.selecting values := by
      simp only [selecting, hitems hfills]
    have hwriting (hfills : kind = .bind .calculate ∨ kind = .itemset) (text : String) :
        ({ n with status } : Node).writing text = n.writing text := by
      simp only [writing, hselecting hfills]
    have hrevising (hfills : kind = .bind .calculate ∨ kind = .itemset) :
        ({ n with status } : Node).revising = n.revising := by
      simp only [revising, hselecting hfills]
    rcases kind with (_ | _ | _ | _ | _) | _ <;> cases v <;>
      simp_all [Stores]

end Node

/-- The nodes that must be relevant for an output to be wanted. -/
def Output.gates (q : Output) (t : Tree) : List NodeId :=
  match q.kind with
  | .bind .relevant => t.ancestors q.node
  | _ => q.node :: t.ancestors q.node

namespace Pass

variable {book : RuleBook} {p p' p'' : Pass} {o q : Output} {id : NodeId}

theorem isSuppressed_eq_false_iff :
    p.isSuppressed q = false ↔ ∀ z ∈ q.gates p.tree, p.tree.hasRelevance z := by
  obtain ⟨node, kind⟩ := q
  rcases kind with (_ | _ | _ | _ | _) | _ <;>
    simp [isSuppressed, Output.gates, Tree.isRelevant, Tree.isReachable]

/-- What every change during a pass keeps. -/
structure Writes (book : RuleBook) (p p' : Pass) : Prop where
  frame : p.tree.SameFrame p'.tree
  coherent : p'.tree.Coherent
  slots : p.tree.arena.SameSlots p'.tree.arena
  log : p'.log = p.log
  cycles : p'.cycles = p.cycles
  /-- Only outputs that have read live nodes and outputs of live nodes are marked. -/
  marks : ∃ outputs, p'.schedule = p.schedule.mark outputs ∧ ∀ q ∈ outputs,
    (∃ x n, p.tree.get? x = some n ∧ q ∈ p.schedule.readersOf x) ∨
      q ∈ book.outputsAt p.tree q.node
  /-- Where a content has changed, its readers are marked. -/
  readers : ∀ x, p'.tree.content? x ≠ p.tree.content? x → ∀ z ∈ x :: p.tree.ancestors x,
    ∀ q ∈ p.schedule.readersOf z, q ∈ p'.schedule.dirty

namespace Writes

theorem mem_dirty (h : Writes book p p') (hq : q ∈ p.schedule.dirty) : q ∈ p'.schedule.dirty := by
  obtain ⟨outputs, heq, _⟩ := h.marks
  rw [heq]
  exact Schedule.mem_mark.mpr (.inl hq)

theorem readersOf_eq (h : Writes book p p') (x : NodeId) :
    p'.schedule.readersOf x = p.schedule.readersOf x := by
  obtain ⟨outputs, heq, _⟩ := h.marks
  rw [heq, Schedule.readersOf_mark]

theorem refl (h : p.tree.Coherent) : Writes book p p where
  frame := .refl p.tree
  coherent := h
  slots := .refl _
  log := rfl
  cycles := rfl
  marks := ⟨[], rfl, fun _ hq => absurd hq List.not_mem_nil⟩
  readers _ hx := absurd rfl hx

theorem trans (h : Writes book p p') (h' : Writes book p' p'') : Writes book p p'' where
  frame := h.frame.trans h'.frame
  coherent := h'.coherent
  slots := h.slots.trans h'.slots
  log := h'.log.trans h.log
  cycles := h'.cycles.trans h.cycles
  marks := by
    obtain ⟨xs, heq, hxs⟩ := h.marks
    obtain ⟨ys, heq', hys⟩ := h'.marks
    refine ⟨xs ++ ys, by rw [heq', heq, Schedule.mark_mark], ?_⟩
    intro q hq
    rcases List.mem_append.mp hq with hq | hq
    · exact hxs q hq
    · rcases hys q hq with ⟨x, n', hn', hx⟩ | hq
      · rcases h.frame.get?_cases x with ⟨_, hnone⟩ | ⟨n, _, hn, _⟩
        · cases hnone.symm.trans hn'
        · exact .inl ⟨x, n, hn, by rwa [← h.readersOf_eq]⟩
      · exact .inr (by rwa [← RuleBook.outputsAt_eq h.frame])
  readers := by
    intro x hx z hz q hq
    by_cases hsame : p'.tree.content? x = p.tree.content? x
    · refine h'.readers x (by rwa [hsame]) z ?_ q ?_
      · rwa [h.frame.ancestors_eq]
      · rwa [h.readersOf_eq]
    · exact h'.mem_dirty (h.readers x hsame z hz q hq)

end Writes

/-! ## The changes one by one -/

theorem get?_setStatus (p : Pass) (id x : NodeId) (g : Status → Status) :
    (p.setStatus id g).tree.get? x
      = if x = id then (p.tree.get? id).map fun n => { n with status := g n.status }
        else p.tree.get? x :=
  Tree.get?_modify _ _ _ _

theorem sameLinks_setStatus (p : Pass) (id : NodeId) (g : Status → Status) :
    p.tree.SameLinks (p.setStatus id g).tree :=
  Tree.sameLinks_modify _ _ fun _ => rfl

theorem coherent_setStatus (h : p.tree.Coherent) (id : NodeId) (g : Status → Status) :
    p.tree.SameFrame (p.setStatus id g).tree ∧ (p.setStatus id g).tree.Coherent :=
  h.modify fun n hn => ⟨rfl, show n.content.suits _ from h.filled hn⟩

theorem writes_setStatus (h : p.tree.Coherent) (id : NodeId) (g : Status → Status) :
    Writes book p (p.setStatus id g) where
  frame := (coherent_setStatus h id g).1
  coherent := (coherent_setStatus h id g).2
  slots := Arena.sameSlots_modify _ _ _
  log := rfl
  cycles := rfl
  marks := ⟨[], rfl, fun _ hq => absurd hq List.not_mem_nil⟩
  readers := by
    intro x hx
    refine absurd ?_ hx
    rw [Tree.content?, Tree.content?, get?_setStatus]
    by_cases hid : x = id
    · rw [if_pos hid, hid, Option.map_map]
      rfl
    · rw [if_neg hid]

theorem writes_wrote (h : p.tree.Coherent) {f : Node → Content} (hf : Content.Fits f) (id : NodeId) :
    Writes book p (p.wrote id (p.tree.rewrite id f)) := by
  obtain ⟨hframe, hcoherent⟩ := h.rewrite hf id
  cases hchanged : (p.tree.rewrite id f).1 with
  | false =>
    have hsame : p.wrote id (p.tree.rewrite id f) = p := by
      simp only [wrote, hchanged, Tree.rewrite_of_unchanged hchanged]
      rfl
    rw [hsame]
    exact .refl h
  | true =>
    have hwrote : p.wrote id (p.tree.rewrite id f)
        = { p with tree := (p.tree.rewrite id f).2
                   schedule := p.schedule.markReaders (p.tree.rewrite id f).2 id } := by
      simp only [wrote, hchanged, if_true]
    rw [hwrote]
    refine ⟨hframe, hcoherent, Tree.sameSlots_rewrite _ id f, rfl, rfl, ⟨_, rfl, ?_⟩, ?_⟩
    · intro q hq
      obtain ⟨x, hx, hq⟩ := List.mem_flatMap.mp hq
      rw [hframe.ancestors_eq] at hx
      obtain ⟨n, hn⟩ := h.connected.live_of_mem_ancestors hx (Tree.live_of_rewrite hchanged)
      exact .inl ⟨x, n, hn, hq⟩
    · intro x hx z hz q hq
      have hid : x = id := by
        by_contra hne
        rw [Tree.content?, Tree.content?, Tree.get?_rewrite, if_neg hne] at hx
        exact hx rfl
      subst hid
      refine Schedule.mem_mark.mpr (.inr (List.mem_flatMap.mpr ⟨z, ?_, hq⟩))
      rwa [hframe.ancestors_eq]

theorem get?_wrote (p : Pass) (id x : NodeId) (f : Node → Content) :
    (p.wrote id (p.tree.rewrite id f)).tree.get? x
      = if x = id then (p.tree.get? id).map fun n => { n with content := f n }
        else p.tree.get? x :=
  Tree.get?_rewrite _ _ _ _

theorem writes_clear (ids : List NodeId) (h : p.tree.Coherent) :
    Writes book p (ids.foldl (fun p id => p.wrote id (p.tree.clear id)) p) := by
  induction ids generalizing p with
  | nil => exact .refl h
  | cons id ids ih =>
    have hfirst : Writes book p (p.wrote id (p.tree.rewrite id Node.emptying)) :=
      writes_wrote h Node.fits_emptying id
    rw [List.foldl_cons, Tree.clear_eq]
    exact hfirst.trans (ih hfirst.coherent)

/-- Emptying leaves changes nothing but their contents. -/
theorem get?_clear (ids : List NodeId) (p : Pass) (x : NodeId) :
    (ids.foldl (fun p id => p.wrote id (p.tree.clear id)) p).tree.get? x
      = if x ∈ ids then (p.tree.get? x).map fun n => { n with content := n.emptying }
        else p.tree.get? x := by
  induction ids generalizing p with
  | nil => rfl
  | cons id ids ih =>
    rw [List.foldl_cons, Tree.clear_eq, ih, get?_wrote]
    by_cases hx : x = id
    · subst hx
      cases p.tree.get? x <;> simp [Node.emptying_emptying]
    · simp [hx]

theorem get?_clearBelow (p : Pass) (id x : NodeId) :
    ((p.clearBelow id).tree.get? x).map (·.status) = (p.tree.get? x).map (·.status) ∧
      (x ∉ p.tree.subtree id → (p.clearBelow id).tree.get? x = p.tree.get? x) := by
  rw [clearBelow, get?_clear]
  split
  next hx => exact ⟨by rw [Option.map_map]; rfl, fun hnot => absurd hx hnot⟩
  next => exact ⟨rfl, fun _ => rfl⟩

/-! ## Storing a result -/

/-- A change on behalf of an output leaves all that is stored for the others, as far as these are
wanted and not marked. -/
structure Stored (book : RuleBook) (o : Output) (p p' : Pass) : Prop extends Writes book p p' where
  others : ∀ q, q ≠ o → q ∈ book.outputsAt p.tree q.node → q ∉ p'.schedule.dirty →
    p'.isSuppressed q = false → p.isSuppressed q = false ∧ ∀ n, p.tree.get? q.node = some n →
      ∃ n', p'.tree.get? q.node = some n' ∧ Node.Passes q.kind n n'

theorem Stored.trans (h : Stored book o p p') (h' : Stored book o p' p'') :
    Stored book o p p'' where
  toWrites := h.toWrites.trans h'.toWrites
  others := by
    intro q hne hq hdirty hwanted
    have hq' : q ∈ book.outputsAt p'.tree q.node := by rwa [RuleBook.outputsAt_eq h.frame]
    obtain ⟨hwanted', hpass'⟩ := h'.others q hne hq' hdirty hwanted
    obtain ⟨hwanted, hpass⟩ := h.others q hne hq (fun hd => hdirty (h'.mem_dirty hd)) hwanted'
    refine ⟨hwanted, ?_⟩
    intro n hn
    obtain ⟨n', hn', hpass⟩ := hpass n hn
    obtain ⟨n'', hn'', hpass'⟩ := hpass' n' hn'
    exact ⟨n'', hn'', hpass.trans hpass'⟩

theorem gates_eq (h : p.tree.SameLinks p'.tree) (q : Output) :
    q.gates p'.tree = q.gates p.tree := by
  unfold Output.gates
  rw [h.ancestors_eq]

theorem hasRelevance_eq {t t' : Tree} {x : NodeId}
    (h : (t'.get? x).map (·.status.relevant) = (t.get? x).map (·.status.relevant)) :
    t'.hasRelevance x = t.hasRelevance x := by
  unfold Tree.hasRelevance
  cases hn : t.get? x <;> cases hn' : t'.get? x <;> simp_all

/-- Where the condition of the node stays as it is, so do all conditions. -/
theorem hasRelevance_setStatus {g : Status → Status} (hg : ∀ s, (g s).relevant = s.relevant)
    (id x : NodeId) : (p.setStatus id g).tree.hasRelevance x = p.tree.hasRelevance x := by
  apply hasRelevance_eq
  rw [get?_setStatus]
  by_cases hx : x = id
  · rw [if_pos hx, hx, Option.map_map]
    simp only [Function.comp_def, hg]
  · rw [if_neg hx]

theorem hasRelevance_clearBelow (id x : NodeId) :
    (p.clearBelow id).tree.hasRelevance x = p.tree.hasRelevance x := by
  apply hasRelevance_eq
  have hstatus := congrArg (Option.map (·.relevant)) (get?_clearBelow p id x).1
  rwa [Option.map_map, Option.map_map] at hstatus

theorem hasRelevance_wrote (id x : NodeId) (f : Node → Content) :
    (p.wrote id (p.tree.rewrite id f)).tree.hasRelevance x = p.tree.hasRelevance x := by
  apply hasRelevance_eq
  rw [get?_wrote]
  by_cases hx : x = id
  · rw [if_pos hx, hx, Option.map_map]
    rfl
  · rw [if_neg hx]

/-- Whether an output is wanted depends on relevance only. -/
theorem isSuppressed_eq (hlinks : p.tree.SameLinks p'.tree)
    (hrelevant : ∀ x, p'.tree.hasRelevance x = p.tree.hasRelevance x) (q : Output) :
    p'.isSuppressed q = p.isSuppressed q := by
  rw [Bool.eq_iff_iff, ← not_iff_not, Bool.not_eq_true, Bool.not_eq_true,
    isSuppressed_eq_false_iff, isSuppressed_eq_false_iff, gates_eq hlinks]
  simp only [hrelevant]

/-- A change to one node that has no bearing on relevance. -/
theorem Writes.stored (h : Writes book p p')
    (hrelevant : ∀ x, p'.tree.hasRelevance x = p.tree.hasRelevance x)
    (hget : ∀ x, x ≠ o.node → p'.tree.get? x = p.tree.get? x)
    (hnode : ∀ q ∈ book.outputsAt p.tree o.node, q ≠ o → ∀ n, p.tree.get? o.node = some n →
      ∃ n', p'.tree.get? o.node = some n' ∧ Node.Passes q.kind n n') : Stored book o p p' where
  toWrites := h
  others := by
    intro q hne hq _ hwanted
    refine ⟨by rwa [← isSuppressed_eq h.frame.sameLinks hrelevant], ?_⟩
    intro n hn
    by_cases hid : q.node = o.node
    · rw [hid] at hq hn ⊢
      exact hnode q hq hne n hn
    · exact ⟨n, by rw [hget _ hid, hn], .refl q.kind n⟩

theorem kind_ne (hq : q ∈ book.outputsAt p.tree o.node) (hne : q ≠ o) : q.kind ≠ o.kind := by
  intro heq
  obtain ⟨hnode, _⟩ := RuleBook.mem_outputsAt.mp hq
  cases q
  cases o
  exact hne (by simp_all)

theorem stored_setStatus (h : p.tree.Coherent) {g : Status → Status}
    (hrelevant : ∀ s, (g s).relevant = s.relevant)
    (hpass : ∀ q ∈ book.outputsAt p.tree o.node, q ≠ o → ∀ n : Node,
      Node.Passes q.kind n { n with status := g n.status }) :
    Stored book o p (p.setStatus o.node g) := by
  refine (writes_setStatus h o.node g).stored ?_ ?_ ?_
  · intro x
    apply hasRelevance_eq
    rw [get?_setStatus]
    by_cases hx : x = o.node
    · rw [if_pos hx, hx, Option.map_map]
      cases p.tree.get? o.node <;> simp [hrelevant]
    · rw [if_neg hx]
  · intro x hx
    rw [get?_setStatus, if_neg hx]
  · intro q hq hne n hn
    exact ⟨{ n with status := g n.status }, by rw [get?_setStatus, if_pos rfl, hn]; rfl,
      hpass q hq hne n⟩

theorem stored_setFailure (h : p.tree.Coherent) (message : Option String) :
    Stored book o p (p.setFailure o message) :=
  stored_setStatus h (fun _ => rfl) fun _ hq hne n =>
    Node.passes_failure (kind_ne hq hne) n message

/-- The content of a node is written on behalf of the one output that fills it. -/
theorem stored_wrote (hbook : book.Divided) (h : p.tree.Coherent)
    (ho : o ∈ book.outputsAt p.tree o.node) (hkind : o.kind = .bind .calculate ∨ o.kind = .itemset)
    {f : Node → Content} (hf : Content.Fits f) :
    Stored book o p (p.wrote o.node (p.tree.rewrite o.node f)) := by
  refine (writes_wrote h hf o.node).stored (fun x => hasRelevance_wrote o.node x f) ?_ ?_
  · intro x hx
    rw [get?_wrote, if_neg hx]
  · intro q hq hne n hn
    refine ⟨{ n with content := f n }, by rw [get?_wrote, if_pos rfl, hn]; rfl, ?_⟩
    exact Node.passes_content (fun hkind' => hne (hbook.kind_eq ho hq hkind hkind')) n (f n)

theorem gates_subset (q : Output) (t : Tree) : q.gates t ⊆ q.node :: t.ancestors q.node := by
  obtain ⟨node, kind⟩ := q
  rcases kind with (_ | _ | _ | _ | _) | _ <;> simp [Output.gates]

theorem mem_gates {q : Output} {t : Tree} {z : NodeId} (hz : z ∈ q.node :: t.ancestors q.node)
    (hne : q ≠ ⟨z, .bind .relevant⟩) : z ∈ q.gates t := by
  obtain ⟨node, kind⟩ := q
  rcases List.mem_cons.mp hz with rfl | hz
  · rcases kind with (_ | _ | _ | _ | _) | _
    · exact absurd rfl hne
    all_goals exact List.mem_cons_self
  · rcases kind with (_ | _ | _ | _ | _) | _
    · exact hz
    all_goals exact List.mem_cons_of_mem _ hz

/-! ## Relevance -/

/-- The relevance of a node, before anything follows from it. -/
def flagged (p : Pass) (id : NodeId) (b : Bool) : Pass :=
  p.setStatus id fun s => { s with relevant := b }

/-- Marks the outputs at and below the node of an output, that output aside. -/
def markBelow (book : RuleBook) (p : Pass) (o : Output) : Pass :=
  p.mark (((p.tree.subtree o.node).flatMap (book.outputsAt p.tree)).filter (· ≠ o))

theorem setRelevant_eq (p : Pass) (o : Output) (b : Bool) :
    p.setRelevant book o b
      = match p.tree.isRelevant o.node, (p.flagged o.node b).tree.isRelevant o.node with
        | true, false => (p.flagged o.node b).clearBelow o.node
        | false, true => (p.flagged o.node b).markBelow book o
        | _, _ => p.flagged o.node b :=
  rfl

theorem get?_flagged (p : Pass) (id x : NodeId) (b : Bool) :
    (p.flagged id b).tree.get? x
      = if x = id then (p.tree.get? id).map fun n => { n with status.relevant := b }
        else p.tree.get? x :=
  get?_setStatus _ _ _ _

theorem hasRelevance_flagged (b : Bool) {x : NodeId} (hx : x ≠ id) :
    (p.flagged id b).tree.hasRelevance x = p.tree.hasRelevance x := by
  apply hasRelevance_eq
  rw [get?_flagged, if_neg hx]

theorem hasRelevance_flagged_self (hlive : ∃ n, p.tree.get? id = some n) (b : Bool) :
    (p.flagged id b).tree.hasRelevance id = b := by
  obtain ⟨n, hn⟩ := hlive
  simp [Tree.hasRelevance, get?_flagged, hn]

section

variable (h : p.tree.Coherent) (hlive : ∃ n, p.tree.get? o.node = some n)

include h

theorem writes_flagged (id : NodeId) (b : Bool) : Writes book p (p.flagged id b) :=
  writes_setStatus h id _

theorem writes_markBelow (o : Output) : Writes book p (p.markBelow book o) where
  frame := .refl p.tree
  coherent := h
  slots := .refl _
  log := rfl
  cycles := rfl
  marks := by
    refine ⟨_, rfl, ?_⟩
    intro q hq
    obtain ⟨x, _, hx⟩ := List.mem_flatMap.mp (List.mem_filter.mp hq).1
    obtain ⟨rfl, _⟩ := RuleBook.mem_outputsAt.mp hx
    exact .inr hx
  readers _ hx := absurd rfl hx

theorem writes_setRelevant (o : Output) (b : Bool) : Writes book p (p.setRelevant book o b) := by
  have hflag : Writes book p (p.flagged o.node b) := writes_flagged h o.node b
  rw [setRelevant_eq]
  split
  · exact hflag.trans (writes_clear _ hflag.coherent)
  · exact hflag.trans (writes_markBelow hflag.coherent o)
  · exact hflag

theorem writes_apply (o : Output) (v : OutputValue) : Writes book p (p.apply book o v) := by
  unfold apply
  split
  · exact writes_setRelevant h o _
  · exact writes_setStatus h _ _
  · exact writes_setStatus h _ _
  · exact writes_setStatus h _ _
  · rw [Tree.write_eq]
    exact writes_wrote h (Node.fits_writing _) _
  next list _ =>
    have hitems : Writes book p (p.setStatus o.node fun s => { s with items := list }) :=
      writes_setStatus h _ _
    refine hitems.trans ?_
    simp only [Tree.reviseSelection_eq]
    exact writes_wrote hitems.coherent Node.fits_revising _
  · exact .refl h

include hlive

/-- Where all ancestors are relevant, the flag of a node decides. -/
theorem isRelevant_flagged (hreach : p.tree.isReachable o.node) (b : Bool) :
    (p.flagged o.node b).tree.isRelevant o.node = b := by
  have hself := hasRelevance_flagged_self hlive b
  have hframe : p.tree.SameFrame (p.flagged o.node b).tree := (coherent_setStatus h o.node _).1
  unfold Tree.isRelevant
  rw [hself]
  cases b with
  | false => rfl
  | true =>
    simp only [Tree.isReachable, List.all_eq_true, hframe.ancestors_eq, Bool.true_and] at hreach ⊢
    intro z hz
    by_cases hzo : z = o.node
    · rw [hzo, hself]
    · rw [hasRelevance_flagged true hzo]
      exact hreach z hz

/-- An output from outside the subtree of a node does not notice the relevance of the node. -/
theorem others_of_outside (hframe : p.tree.SameFrame p'.tree)
    (hrelevant : ∀ x, x ≠ o.node → p'.tree.hasRelevance x = p.tree.hasRelevance x)
    (hget : ∀ x, x ∉ p.tree.subtree o.node → p'.tree.get? x = p.tree.get? x)
    (hq : q.node ∉ p.tree.subtree o.node) (hwanted : p'.isSuppressed q = false) :
    p.isSuppressed q = false ∧ ∀ n, p.tree.get? q.node = some n →
      ∃ n', p'.tree.get? q.node = some n' ∧ Node.Passes q.kind n n' := by
  refine ⟨?_, fun n hn => ⟨n, by rw [hget _ hq, hn], .refl q.kind n⟩⟩
  rw [isSuppressed_eq_false_iff] at hwanted ⊢
  intro z hz
  have hne : z ≠ o.node := by
    intro heq
    refine hq ((h.connected.mem_subtree_iff_mem_ancestors hlive).mpr ?_)
    exact heq ▸ gates_subset q p.tree hz
  rw [← hrelevant z hne]
  exact hwanted z (by rwa [gates_eq hframe.sameLinks])

theorem self_mem_subtree : o.node ∈ p.tree.subtree o.node :=
  (h.connected.mem_subtree_iff_mem_ancestors hlive).mpr List.mem_cons_self

/-- What ceases to be relevant is not wanted any more. -/
theorem stored_clearBelow (hkind : o.kind = .bind .relevant) :
    Stored book o p ((p.flagged o.node false).clearBelow o.node) := by
  have hflag : Writes book p (p.flagged o.node false) := writes_flagged h o.node false
  have hclear : Writes book (p.flagged o.node false) ((p.flagged o.node false).clearBelow o.node) :=
    writes_clear _ hflag.coherent
  have hget := get?_clearBelow (p.flagged o.node false) o.node
  rw [hflag.frame.subtree_eq] at hget
  refine ⟨hflag.trans hclear, ?_⟩
  intro q hne hq _ hwanted
  -- an output inside the subtree is not wanted any more, as `o.node` stands among its gates
  have hout : q.node ∉ p.tree.subtree o.node := by
    intro hin
    have habove := (h.connected.mem_subtree_iff_mem_ancestors hlive).mp hin
    have hgate : o.node ∈ q.gates p.tree := by
      refine mem_gates habove fun heq => hne ?_
      rw [heq, ← hkind]
    rw [isSuppressed_eq_false_iff, gates_eq (hflag.trans hclear).frame.sameLinks] at hwanted
    have hoff := hwanted o.node hgate
    rw [hasRelevance_clearBelow, hasRelevance_flagged_self hlive] at hoff
    exact nomatch hoff
  refine others_of_outside h hlive (hflag.trans hclear).frame ?_ ?_ hout hwanted
  · intro x hx
    rw [hasRelevance_clearBelow, hasRelevance_flagged false hx]
  · intro x hx
    rw [(hget x).2 hx, get?_flagged, if_neg]
    rintro rfl
    exact hx (self_mem_subtree h hlive)

/-- The outputs at and below a node that becomes relevant are marked. -/
theorem stored_markBelow : Stored book o p ((p.flagged o.node true).markBelow book o) := by
  have hflag : Writes book p (p.flagged o.node true) := writes_flagged h o.node true
  have hmark : Writes book (p.flagged o.node true) ((p.flagged o.node true).markBelow book o) :=
    writes_markBelow hflag.coherent o
  refine ⟨hflag.trans hmark, ?_⟩
  intro q hne hq hdirty hwanted
  have hout : q.node ∉ p.tree.subtree o.node := by
    intro hin
    refine hdirty (Schedule.mem_mark.mpr (.inr ?_))
    rw [hflag.frame.subtree_eq]
    refine List.mem_filter.mpr ⟨List.mem_flatMap.mpr ⟨q.node, hin, ?_⟩, by simpa using hne⟩
    rwa [RuleBook.outputsAt_eq hflag.frame]
  refine others_of_outside h hlive (hflag.trans hmark).frame ?_ ?_ hout hwanted
  · intro x hx
    exact hasRelevance_flagged true hx
  · intro x hx
    refine (get?_flagged p o.node x true).trans (if_neg ?_)
    rintro rfl
    exact hx (self_mem_subtree h hlive)

theorem stored_setRelevant (hkind : o.kind = .bind .relevant) (hwanted : p.isSuppressed o = false)
    (b : Bool) : Stored book o p (p.setRelevant book o b) := by
  have hreach : p.tree.isReachable o.node := by
    simpa [isSuppressed, hkind] using hwanted
  have hafter := isRelevant_flagged h hlive hreach b
  rw [setRelevant_eq, hafter]
  -- relevance that does not change marks and empties nothing
  have hsame : p.tree.isRelevant o.node = b → Stored book o p (p.flagged o.node b) := by
    intro hbefore
    have hrelevance : p.tree.hasRelevance o.node = b := by
      simpa [Tree.isRelevant, hreach] using hbefore
    refine (writes_flagged h o.node b).stored ?_ ?_ ?_
    · intro x
      by_cases hx : x = o.node
      · rw [hx, hasRelevance_flagged_self hlive, hrelevance]
      · exact hasRelevance_flagged b hx
    · intro x hx
      rw [get?_flagged, if_neg hx]
    · intro q hq hne n hn
      refine ⟨{ n with status.relevant := b }, by rw [get?_flagged, if_pos rfl, hn]; rfl, ?_⟩
      refine Node.passes_status rfl (fun _ => rfl) ?_ (fun _ => rfl) (fun _ => rfl) fun _ => rfl
      intro hrelevant
      exact absurd (hrelevant.trans hkind.symm) (kind_ne hq hne)
  cases hbefore : p.tree.isRelevant o.node <;> cases b
  · exact hsame hbefore
  · exact stored_markBelow h hlive
  · exact stored_clearBelow h hlive hkind
  · exact hsame hbefore

end

theorem get?_setRelevant (p : Pass) (o : Output) (b : Bool) :
    ((p.setRelevant book o b).tree.get? o.node).map (·.status)
      = (p.tree.get? o.node).map fun n => { n.status with relevant := b } := by
  have hflag : ((p.flagged o.node b).tree.get? o.node).map (·.status)
      = (p.tree.get? o.node).map fun n => { n.status with relevant := b } := by
    rw [get?_flagged, if_pos rfl, Option.map_map]
    rfl
  unfold setRelevant
  simp only
  split
  · exact ((get?_clearBelow _ o.node o.node).1).trans hflag
  · exact hflag
  · exact hflag

/-! ## Results -/

theorem apply_of_drops {v : OutputValue} (h : o.kind.drops v) : p.apply book o v = p := by
  obtain ⟨id, kind⟩ := o
  rcases kind with (_ | _ | _ | _ | _) | _ <;> cases v <;> first | rfl | cases h

/-- A value is stored where there is no failure. -/
theorem holds_apply {n : Node} (hn : p.tree.get? o.node = some n)
    (hclean : n.status.failures.get o.kind = none) (v : OutputValue) :
    ∃ n', (p.apply book o v).tree.get? o.node = some n' ∧ n'.Holds o.kind (.ok v) := by
  have hstatus (g : Status → Status) :
      (p.setStatus o.node g).tree.get? o.node = some { n with status := g n.status } := by
    rw [get?_setStatus, if_pos rfl, hn, Option.map_some]
  obtain ⟨id, kind⟩ := o
  cases kind.lands v with
  | relevant b =>
    have hset : ((p.setRelevant book ⟨id, .bind .relevant⟩ b).tree.get? id).map (·.status)
        = (p.tree.get? id).map fun n => { n.status with relevant := b } :=
      get?_setRelevant p ⟨id, .bind .relevant⟩ b
    rw [hn] at hset
    obtain ⟨n', hn', heq⟩ := Option.map_eq_some_iff.mp hset
    refine ⟨n', hn', ?_, ?_⟩
    · rw [heq]
      exact hclean
    · change n'.status.relevant = b
      rw [heq]
  | readonly b => exact ⟨_, hstatus _, hclean, rfl⟩
  | required b => exact ⟨_, hstatus _, hclean, rfl⟩
  | constraint b => exact ⟨_, hstatus _, hclean, rfl⟩
  | calculate s =>
    refine ⟨{ n with content := n.writing s }, ?_, hclean, n.writing_writing s⟩
    change (p.wrote id (p.tree.write id s)).tree.get? id = _
    rw [Tree.write_eq, get?_wrote, if_pos rfl, hn, Option.map_some]
  | itemset list =>
    let m : Node := { n with status.items := list }
    refine ⟨{ m with content := m.revising }, ?_, hclean, rfl, m.revising_revising⟩
    change ((p.setStatus id fun s => { s with items := list }).wrote id
      ((p.setStatus id fun s => { s with items := list }).tree.reviseSelection id)).tree.get? id = _
    rw [Tree.reviseSelection_eq, get?_wrote, if_pos rfl, hstatus, Option.map_some]
  | dropped h =>
    rw [apply_of_drops h]
    exact ⟨n, hn, hclean, n.stores_of_drops h⟩

theorem stored_apply (hbook : book.Divided) (h : p.tree.Coherent)
    (ho : o ∈ book.outputsAt p.tree o.node) (hwanted : p.isSuppressed o = false)
    (v : OutputValue) : Stored book o p (p.apply book o v) := by
  have hlive := RuleBook.exists_get?_of_mem ho
  have hrefl : Stored book o p p := (Writes.refl h).stored (fun _ => rfl) (fun _ _ => rfl)
    fun q _ _ n hn => ⟨n, hn, .refl q.kind n⟩
  -- each kind of results has a part of the node to itself, so the other outputs of the node pass
  unfold apply
  split
  next hkind => exact stored_setRelevant h hlive hkind hwanted _
  next hkind =>
    refine stored_setStatus h (fun _ => rfl) fun q hq hne n => ?_
    exact Node.passes_status rfl (fun _ => rfl) (fun _ => rfl)
      (fun hq' => absurd (hq'.trans hkind.symm) (kind_ne hq hne)) (fun _ => rfl) fun _ => rfl
  next hkind =>
    refine stored_setStatus h (fun _ => rfl) fun q hq hne n => ?_
    exact Node.passes_status rfl (fun _ => rfl) (fun _ => rfl) (fun _ => rfl)
      (fun hq' => absurd (hq'.trans hkind.symm) (kind_ne hq hne)) fun _ => rfl
  next hkind =>
    refine stored_setStatus h (fun _ => rfl) fun q hq hne n => ?_
    exact Node.passes_status rfl (fun _ => rfl) (fun _ => rfl) (fun _ => rfl) (fun _ => rfl)
      fun hq' => absurd (hq'.trans hkind.symm) (kind_ne hq hne)
  next hkind =>
    rw [Tree.write_eq]
    exact stored_wrote hbook h ho (.inl hkind) (Node.fits_writing _)
  next list hkind =>
    have hitems : Stored book o p (p.setStatus o.node fun s => { s with items := list }) := by
      refine stored_setStatus h (fun _ => rfl) fun q hq hne n => ?_
      refine Node.passes_status rfl ?_ (fun _ => rfl) (fun _ => rfl) (fun _ => rfl) fun _ => rfl
      exact fun hq' => absurd (hbook.kind_eq ho hq (.inr hkind) hq') hne
    have ho' : o ∈ book.outputsAt (p.setStatus o.node fun s => { s with items := list }).tree
        o.node := by
      rwa [RuleBook.outputsAt_eq hitems.frame]
    refine hitems.trans ?_
    simp only [Tree.reviseSelection_eq]
    exact stored_wrote hbook hitems.coherent ho' (.inr hkind) Node.fits_revising
  next => exact hrefl

theorem isSuppressed_setFailure (p : Pass) (o : Output) (message : Option String) (q : Output) :
    (p.setFailure o message).isSuppressed q = p.isSuppressed q :=
  isSuppressed_eq (sameLinks_setStatus p _ _) (hasRelevance_setStatus (fun _ => by rfl) _) q

/-- The pass in which the reads of an output are taken over, but not its result. -/
def noted (evaluate : Tree → Output → Outcome) (p : Pass) (o : Output) : Pass :=
  { p with schedule := p.schedule.setReads o (evaluate p.tree o).reads, log := o :: p.log }

theorem compute_eq (evaluate : Tree → Output → Outcome) (p : Pass) (o : Output) :
    p.compute book evaluate o = match (evaluate p.tree o).result with
      | .ok value => ((p.noted evaluate o).setFailure o none).apply book o value
      | .error e => (p.noted evaluate o).setFailure o (some e.message) :=
  rfl

variable {evaluate : Tree → Output → Outcome}

theorem writes_compute (h : p.tree.Coherent) (o : Output) :
    Writes book (p.noted evaluate o) (p.compute book evaluate o) := by
  have hfailure (message : Option String) :
      Writes book (p.noted evaluate o) ((p.noted evaluate o).setFailure o message) := by
    have hcoherent : (p.noted evaluate o).tree.Coherent := h
    exact writes_setStatus hcoherent _ _
  rw [compute_eq]
  split
  · exact (hfailure none).trans (writes_apply (hfailure none).coherent o _)
  · exact hfailure _

theorem stored_compute (hbook : book.Divided) (h : p.tree.Coherent)
    (ho : o ∈ book.outputsAt p.tree o.node) (hwanted : p.isSuppressed o = false) :
    Stored book o (p.noted evaluate o) (p.compute book evaluate o) := by
  have hfailure (message : Option String) :
      Stored book o (p.noted evaluate o) ((p.noted evaluate o).setFailure o message) := by
    have hcoherent : (p.noted evaluate o).tree.Coherent := h
    exact stored_setFailure hcoherent message
  rw [compute_eq]
  split
  next value hvalue =>
    have hclean := hfailure none
    have hwanted' : ((p.noted evaluate o).setFailure o none).isSuppressed o = false := by
      have hsame := isSuppressed_setFailure (p.noted evaluate o) o none o
      exact hsame.trans hwanted
    refine hclean.trans (stored_apply hbook hclean.coherent ?_ hwanted' value)
    rwa [RuleBook.outputsAt_eq hclean.frame]
  next => exact hfailure _

theorem holds_compute {n : Node} (hn : p.tree.get? o.node = some n) :
    ∃ n', (p.compute book evaluate o).tree.get? o.node = some n' ∧
      n'.Holds o.kind (evaluate p.tree o).result := by
  have hfailure (message : Option String) :
      ((p.noted evaluate o).setFailure o message).tree.get? o.node
        = some { n with status.failures := n.status.failures.set o.kind message } := by
    refine (get?_setStatus _ _ _ _).trans ?_
    rw [if_pos rfl]
    exact congrArg (Option.map _) hn
  rw [compute_eq]
  split
  next value hvalue =>
    rw [hvalue]
    refine holds_apply (hfailure none) ?_ value
    exact (Failures.get_set _ _ _ _).trans (if_pos rfl)
  next e he =>
    rw [he]
    refine ⟨_, hfailure _, ?_⟩
    exact (Failures.get_set _ _ _ _).trans (if_pos rfl)

end Pass

end ReactiveForm
