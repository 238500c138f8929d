import ReactiveForm.Form.Action
import ReactiveForm.Proofs.Tree.Entry

/-!
# Requests

The actions of a user as data. A request is checked first; one that is refused leaves the form as
it is, and any other makes one change to the form, which a pass follows.
-/

set_option autoImplicit false

namespace ReactiveForm

/-- What a user may do to a form whose functions are fixed. -/
inductive Request where
  | setValue (id : NodeId) (text : String)
  | select (id : NodeId) (item : String)
  | deselect (id : NodeId) (item : String)
  | addInstances (range : NodeId) (after : Option Int) (count : Nat)
  | addInstancesFrom (range : NodeId) (after : Option Int) (count : Nat) (template : Definition)
  | removeInstances (range : NodeId) (start count : Nat)
  | recompute

namespace Request

def action : Request → Form.Action Refusal Unit
  | setValue id text => Form.setValue id text
  | select id item => Form.select id item
  | deselect id item => Form.deselect id item
  | addInstances range after count => Form.addInstances range after count
  | addInstancesFrom range after count template => Form.addInstancesFrom range after count template
  | removeInstances range start count => Form.removeInstances range start count
  | recompute => modify Form.recompute

/-- Whether all outputs are computed after the request. -/
def isFull : Request → Bool
  | setValue _ _ | select _ _ | deselect _ _ => false
  | _ => true

end Request

namespace Form

variable (f : Form)

/-- The form after a request, which may have been refused. -/
def perform (r : Request) : Form := (r.action.run f).2

/-- The form with all outputs marked. -/
def marked : Form := { f with schedule := f.schedule.mark (f.logic.rules.outputs f.tree) }

def checkLive (id : NodeId) : Except Refusal String :=
  if f.tree.contains id then .ok (f.tree.reference id) else .error (.unknownNode id)

def checkOpen (id : NodeId) (reference : String) : Except Refusal Unit :=
  if !f.tree.isRelevant id then .error (.notRelevant reference)
  else if f.tree.isReadonly id then .error (.readonly reference)
  else .ok ()

/-- The form with a text written to a value. -/
def entered (id : NodeId) (text : String) : Except Refusal Form := do
  let reference ← f.checkLive id
  match f.tree.content? id with
  | some (.text _) => f.checkOpen id reference
  | some (.selection _) => .error (.unsupported reference "set_value")
  | _ => .error (.notValue reference)
  pure (f.wrote id (f.tree.write id text))

/-- The mode of a selection that may be changed by an item, and the values selected. -/
def checkChoice (id : NodeId) (item : String) : Except Refusal (SelectMode × List String) := do
  let reference ← f.checkLive id
  match f.tree.get? id with
  | none => .error (.unknownNode id)
  | some n =>
    match n.definition, n.content with
    | .select _ mode _ items itemset, .selection values =>
      f.checkOpen id reference
      if (!items.isEmpty || itemset.isSome) && !n.status.items.any (·.value == item) then
        .error (.unknownItem reference item)
      else .ok (mode, values)
    | _, _ => .error (.notSelect reference)

/-- The form with other values selected. -/
def chosen (id : NodeId) (item : String) (next : SelectMode → List String → List String) :
    Except Refusal Form := do
  let (mode, values) ← f.checkChoice id item
  pure (f.wrote id (f.tree.selectValues id (next mode values)))

/-- The form with instances added. -/
def grown (range : NodeId) (reference : String) (after : Option Int) (count : Nat)
    (template : Definition) : Except Refusal Form :=
  let size := (f.instances range).length
  let last : Int := size - 1
  let place := after.getD last
  if place < -1 || last < place then .error (.indexOutOfRange reference place size)
  else .ok (marked
    { f with tree := f.tree.insertInstances range (place + 1).toNat count template })

/-- What a request changes before the pass. -/
def begun : Request → Except Refusal Form
  | .setValue id text => f.entered id text
  | .select id item => f.chosen id item fun mode values =>
    match mode with
    | .single => [item]
    | .multiple => if item ∈ values then values else values ++ [item]
  | .deselect id item => f.chosen id item fun _ values => values.filter (· ≠ item)
  | .addInstances range after count => do
    let reference ← f.checkLive range
    match f.tree.template? range with
    | none => .error (.notRange reference)
    | some template => f.grown range reference after count template
  | .addInstancesFrom range after count template => do
    let reference ← f.checkLive range
    match f.tree.template? range with
    | none => .error (.notRange reference)
    | some own =>
      if template.reference ≠ own.reference || template.type ≠ .inst then
        .error (.templateMismatch reference template.reference)
      else f.grown range reference after count template
  | .removeInstances range start count => do
    let reference ← f.checkLive range
    if !f.tree.isRange range then .error (.notRange reference)
    else
      let size := (f.instances range).length
      if size ≤ start || size - start < count then
        let index := if size ≤ start then start else size
        .error (.indexOutOfRange reference (min index maxIndex : Nat) size)
      else
        let (removed, tree) := f.tree.removeInstances range start count
        .ok (marked { f with tree, schedule := f.schedule.forget removed })
  | .recompute => .ok f.marked

section

variable {ε α β : Type} {m : Action ε α} {k : α → Action ε β} {f g : Form}

theorem run_bind_ok {a : α} (h : m.run f = (.ok a, g)) : (m >>= k).run f = (k a).run g := by
  have hbind : (m >>= k).run f = ExceptT.bindCont k (m.run f).1 (m.run f).2 := rfl
  rw [hbind, h]
  rfl

theorem run_bind_error {e : ε} (h : m.run f = (.error e, g)) :
    (m >>= k).run f = (.error e, g) := by
  have hbind : (m >>= k).run f = ExceptT.bindCont k (m.run f).1 (m.run f).2 := rfl
  rw [hbind, h]
  rfl

theorem run_bind_check {check : Except ε α} {next : α → Except ε β} (h : m.run f = (check, f))
    (hk : ∀ a, (k a).run f = (next a, f)) : (m >>= k).run f = (check >>= next, f) := by
  cases check with
  | error e => exact run_bind_error h
  | ok a => exact (run_bind_ok h).trans (hk a)

end

theorem run_referenceOf (id : NodeId) : (referenceOf id).run f = (f.checkLive id, f) := by
  unfold checkLive
  have hrun : (referenceOf id).run f
      = ((if f.tree.contains id then pure (f.tree.reference id) else throw (.unknownNode id) :
          Action Refusal String)).run f := rfl
  rw [hrun]
  split <;> rfl

theorem run_get {ε β : Type} (k : Form → Action ε β) : (get >>= k).run f = (k f).run f := rfl

theorem run_modify {ε β : Type} (next : Form → Form) (k : PUnit → Action ε β) :
    (modify next >>= k).run f = (k ⟨⟩).run (next f) := rfl

theorem run_checkWritable (id : NodeId) (reference : String) :
    (checkWritable id reference).run f = (f.checkOpen id reference, f) := by
  unfold checkWritable checkOpen
  rw [run_get]
  cases hr : f.tree.isRelevant id <;> cases ho : f.tree.isReadonly id <;> simp [hr, ho] <;> rfl

/-- The outcome of a request of which this is the change. -/
def after (change : Except Refusal Form) : Except Refusal Unit × Form :=
  match change with
  | .error e => (.error e, f)
  | .ok g => (.ok (), g.recalculate)

theorem run_bind_after {α : Type} {m : Action Refusal α} {k : α → Action Refusal Unit}
    {check : Except Refusal α} {next : α → Except Refusal Form} (h : m.run f = (check, f))
    (hk : ∀ a, (k a).run f = f.after (next a)) : (m >>= k).run f = f.after (check >>= next) := by
  cases check with
  | error e => exact run_bind_error h
  | ok a => exact (run_bind_ok h).trans (hk a)

theorem run_setValue (id : NodeId) (text : String) :
    (setValue id text).run f = f.after (f.entered id text) := by
  unfold setValue entered
  refine f.run_bind_after (f.run_referenceOf id) fun reference => ?_
  rw [run_get]
  cases f.tree.content? id with
  | none => rfl
  | some content =>
    cases content with
    | text before => exact f.run_bind_after (f.run_checkWritable id reference) fun _ => rfl
    | selection values => rfl
    | inner => rfl

theorem run_checkSelect (id : NodeId) (item : String) :
    (checkSelect id item).run f = (f.checkChoice id item, f) := by
  unfold checkSelect checkChoice
  refine run_bind_check (f.run_referenceOf id) fun reference => ?_
  rw [run_get]
  cases hn : f.tree.get? id with
  | none => rfl
  | some n =>
    obtain ⟨definition, parent, children, content, status⟩ := n
    cases definition with
    | select h mode default items itemset =>
      cases content with
      | selection values =>
        refine run_bind_check (f.run_checkWritable id reference) fun _ => ?_
        cases !items.isEmpty || itemset.isSome <;> cases status.items.any (·.value == item) <;> rfl
      | inner | text => rfl
    | root | group | range | inst | value => rfl

theorem run_select (id : NodeId) (item : String) :
    (select id item).run f = f.after (f.begun (.select id item)) :=
  f.run_bind_after (f.run_checkSelect id item) fun _ => rfl

theorem run_deselect (id : NodeId) (item : String) :
    (deselect id item).run f = f.after (f.begun (.deselect id item)) :=
  f.run_bind_after (f.run_checkSelect id item) fun _ => rfl

theorem run_insert (range : NodeId) (reference : String) (place : Option Int) (count : Nat)
    (template : Definition) : (insert range reference place count template).run f
      = f.after (f.grown range reference place count template) := by
  unfold insert grown
  rw [run_get]
  simp only
  split
  · rfl
  · rfl

theorem run_addInstances (range : NodeId) (place : Option Int) (count : Nat) :
    (addInstances range place count).run f = f.after (f.begun (.addInstances range place count)) := by
  unfold addInstances begun
  refine f.run_bind_after (f.run_referenceOf range) fun reference => ?_
  rw [run_get]
  cases f.tree.template? range with
  | none => rfl
  | some template => exact f.run_insert range reference place count template

theorem run_addInstancesFrom (range : NodeId) (place : Option Int) (count : Nat)
    (template : Definition) : (addInstancesFrom range place count template).run f
      = f.after (f.begun (.addInstancesFrom range place count template)) := by
  unfold addInstancesFrom begun
  refine f.run_bind_after (f.run_referenceOf range) fun reference => ?_
  rw [run_get]
  cases f.tree.template? range with
  | none => rfl
  | some own =>
    simp only
    split
    · rfl
    · exact f.run_insert range reference place count template

theorem run_removeInstances (range : NodeId) (start count : Nat) :
    (removeInstances range start count).run f
      = f.after (f.begun (.removeInstances range start count)) := by
  unfold removeInstances begun
  refine f.run_bind_after (f.run_referenceOf range) fun reference => ?_
  simp only [run_get]
  cases f.tree.isRange range with
  | false => rfl
  | true =>
    simp only [Bool.not_true, Bool.false_eq_true, if_false, run_get]
    split
    · rfl
    · rfl

/-- A request that is refused leaves the form as it is; any other is a change and a pass. -/
theorem run_action (f : Form) (r : Request) : r.action.run f = f.after (f.begun r) := by
  cases r with
  | recompute => rfl
  | setValue id text => exact f.run_setValue id text
  | select id item => exact f.run_select id item
  | deselect id item => exact f.run_deselect id item
  | addInstances range after count => exact f.run_addInstances range after count
  | addInstancesFrom range after count template =>
    exact f.run_addInstancesFrom range after count template
  | removeInstances range start count => exact f.run_removeInstances range start count

theorem perform_eq (f : Form) (r : Request) :
    f.perform r = match f.begun r with
      | .error _ => f
      | .ok g => g.recalculate := by
  unfold perform
  rw [run_action]
  cases f.begun r <;> rfl

/-! ## The changes that requests make -/

/-- What becomes of a form when a request is begun. -/
inductive Begins (f : Form) (r : Request) : Form → Prop where
  | write {id : NodeId} {content : Node → Content} :
    r.isFull = false → Content.Fits content →
    (∀ n : Node, ({ n with content := content n } : Node).revising = content n) →
    f.tree.isReadonly id = false → Begins f r (f.wrote id (f.tree.rewrite id content))
  | insert {range : NodeId} {template : Definition} (place count : Nat) :
    r.isFull → f.tree.isRange range →
    (f.tree.template? range = some template ∨
      template.type = .inst ∧ ∃ after count, r = .addInstancesFrom range after count template) →
    Begins f r (marked { f with tree := f.tree.insertInstances range place count template })
  | remove (range : NodeId) (place count : Nat) :
    r.isFull → f.tree.isRange range →
    Begins f r (marked
      { f with
        tree := (f.tree.removeInstances range place count).2
        schedule := f.schedule.forget (f.tree.removeInstances range place count).1 })
  | recompute : r.isFull → Begins f r f.marked

section

variable {f g : Form} {r : Request}

theorem isReadonly_of_checkOpen {id : NodeId} {reference : String}
    (h : f.checkOpen id reference = .ok ()) : f.tree.isReadonly id = false := by
  unfold checkOpen at h
  cases hr : f.tree.isRelevant id <;> cases ho : f.tree.isReadonly id <;> simp_all

theorem begins_of_entered {id : NodeId} {text : String} (h : f.entered id text = .ok g)
    (hr : r.isFull = false) : Begins f r g := by
  unfold entered at h
  obtain ⟨reference, _, h⟩ := ok_of_bind h
  split at h
  · obtain ⟨_, hopen, h⟩ := ok_of_bind h
    obtain rfl := Except.ok.inj h
    rw [Tree.write_eq]
    exact .write hr (Node.fits_writing text) (Node.revising_writing text)
      (isReadonly_of_checkOpen hopen)
  · exact nomatch h
  · exact nomatch h

theorem isReadonly_of_checkChoice {id : NodeId} {item : String}
    {choice : SelectMode × List String} (h : f.checkChoice id item = .ok choice) :
    f.tree.isReadonly id = false := by
  unfold checkChoice at h
  obtain ⟨reference, _, h⟩ := ok_of_bind h
  split at h
  · exact nomatch h
  · split at h
    · obtain ⟨_, hopen, _⟩ := ok_of_bind h
      exact isReadonly_of_checkOpen hopen
    · exact nomatch h

theorem begins_of_chosen {id : NodeId} {item : String}
    {next : SelectMode → List String → List String} (h : f.chosen id item next = .ok g)
    (hr : r.isFull = false) : Begins f r g := by
  unfold chosen at h
  obtain ⟨⟨mode, values⟩, hchoice, h⟩ := ok_of_bind h
  obtain rfl := Except.ok.inj h
  rw [Tree.selectValues_eq]
  exact .write hr (Node.fits_selecting _) (Node.revising_selecting _)
    (isReadonly_of_checkChoice hchoice)

theorem begins_of_grown {range : NodeId} {reference : String} {after : Option Int} {count : Nat}
    {template : Definition} (h : f.grown range reference after count template = .ok g)
    (hr : r.isFull) (hrange : f.tree.isRange range)
    (htemplate : f.tree.template? range = some template ∨
      template.type = .inst ∧ ∃ after count, r = .addInstancesFrom range after count template) :
    Begins f r g := by
  unfold grown at h
  dsimp only at h
  split at h
  · exact nomatch h
  · obtain rfl := Except.ok.inj h
    exact .insert _ _ hr hrange htemplate

theorem isRange_of_template? {t : Tree} {range : NodeId} {template : Definition}
    (h : t.template? range = some template) : t.isRange range := by
  have hall : t.Throughout fun _ => True := fun _ _ _ _ _ => trivial
  exact (hall.template h).1

/-- A template that a request brings along has the reference of the one whose place it takes. -/
theorem reference_of_begun {range : NodeId} {after : Option Int} {count : Nat}
    {template : Definition} (h : f.begun (.addInstancesFrom range after count template) = .ok g) :
    ∃ own, f.tree.template? range = some own ∧ template.reference = own.reference := by
  obtain ⟨reference, _, h⟩ := ok_of_bind h
  split at h
  · exact nomatch h
  next own hown =>
    split at h
    · exact nomatch h
    next hmatch => exact ⟨own, hown, by simp_all⟩

theorem begins_of_begun (h : f.begun r = .ok g) : Begins f r g := by
  unfold begun at h
  cases r with
  | setValue id text => exact begins_of_entered h rfl
  | select id item => exact begins_of_chosen h rfl
  | deselect id item => exact begins_of_chosen h rfl
  | addInstances range after count =>
    obtain ⟨reference, _, h⟩ := ok_of_bind h
    split at h
    · exact nomatch h
    next htemplate =>
      exact begins_of_grown h rfl (isRange_of_template? htemplate) (.inl htemplate)
  | addInstancesFrom range after count template =>
    obtain ⟨reference, _, h⟩ := ok_of_bind h
    split at h
    · exact nomatch h
    next htemplate =>
      split at h
      · exact nomatch h
      -- what does not match the template is refused, so the type is known here
      next hmatch =>
        have htype : template.type = .inst := by simp_all
        refine begins_of_grown h rfl (isRange_of_template? htemplate) (.inr ⟨htype, after, count, rfl⟩)
  | removeInstances range start count =>
    obtain ⟨reference, _, h⟩ := ok_of_bind h
    split at h
    · exact nomatch h
    next hrange =>
      dsimp only at h
      split at h
      · exact nomatch h
      · obtain rfl := Except.ok.inj h
        exact .remove range start count rfl (by simpa using hrange)
  | recompute =>
    obtain rfl := Except.ok.inj h
    exact .recompute rfl

end

end Form

end ReactiveForm
