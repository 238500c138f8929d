import ReactiveForm.Proofs.Schedule.Nodes

/-!
# What passes and entries leave as it is

Under rules that compute nothing but contents, requirements and constraints, all the rest of a node
stays as it was: its links, its relevance, its lock and its items, and what it holds for outputs that
the rules do not compute.
-/

set_option autoImplicit false

namespace ReactiveForm

/-- Nothing but requirements, contents and constraints is computed. -/
def RuleBook.Derives (book : RuleBook) : Prop :=
  ∀ reference rules, Table.get? book reference = some rules →
    ∀ kind ∈ rules.kinds, kind ∈ [.bind .required, .bind .calculate, .bind .constraint]

namespace Arena

variable {α : Type} {a a' : Arena α}

/-- Arenas with the same slots and the same contents are the same. -/
theorem SameSlots.eq (h : a.SameSlots a') (hget : ∀ id, a'.get? id = a.get? id) : a' = a := by
  obtain ⟨slots, free⟩ := a
  obtain ⟨slots', free'⟩ := a'
  obtain rfl : free' = free := h.free
  congr 1
  refine List.ext_getElem? fun i => ?_
  have houtline : slots'[i]?.map Slot.outline = slots[i]?.map Slot.outline := h.slots i
  cases hslot : slots[i]? with
  | none => simpa [hslot] using houtline
  | some slot =>
    rw [hslot, Option.map_some, Option.map_eq_some_iff] at houtline
    obtain ⟨slot', hslot', heq⟩ := houtline
    obtain ⟨generation, content⟩ := slot
    obtain ⟨generation', content'⟩ := slot'
    obtain rfl : generation' = generation := (Prod.mk.inj heq).1
    have hcontent : content' = content := by
      simpa [get?, hslot, hslot'] using hget ⟨i, generation'⟩
    rw [hslot', hcontent]

end Arena

namespace Node

variable {book : RuleBook} {n n' n'' : Node}

/-- The second node has kept what the first one has, but for what the rules compute and for a content
that is open to entries. -/
structure Kept (book : RuleBook) (n n' : Node) : Prop where
  frame : n'.frame = n.frame
  relevant : n'.status.relevant = n.status.relevant
  readonly : n'.status.readonly = n.status.readonly
  items : n'.status.items = n.status.items
  required : ¬n.Computes book (.bind .required) → n'.status.required = n.status.required
  satisfied : ¬n.Computes book (.bind .constraint) → n'.status.satisfied = n.status.satisfied
  content : n.definition.bind.calculate.isSome → ¬n.Computes book (.bind .calculate) →
    n'.content = n.content

theorem Kept.refl (n : Node) : n.Kept book n :=
  ⟨rfl, rfl, rfl, rfl, fun _ => rfl, fun _ => rfl, fun _ _ => rfl⟩

theorem Kept.definition (h : n.Kept book n') : n'.definition = n.definition :=
  (Prod.mk.inj h.frame).1

theorem computes_congr (book : RuleBook) (h : n'.definition = n.definition) (kind : OutputKind) :
    n'.Computes book kind ↔ n.Computes book kind := by
  unfold Computes
  rw [h]

theorem Kept.trans (h : n.Kept book n') (h' : n'.Kept book n'') : n.Kept book n'' := by
  have hcomputes := computes_congr book h.definition
  refine
    { frame := h'.frame.trans h.frame
      relevant := h'.relevant.trans h.relevant
      readonly := h'.readonly.trans h.readonly
      items := h'.items.trans h.items
      required := fun hnot => ?_
      satisfied := fun hnot => ?_
      content := fun hcalculate hnot => ?_ }
  · exact (h'.required (mt (hcomputes _).mp hnot)).trans (h.required hnot)
  · exact (h'.satisfied (mt (hcomputes _).mp hnot)).trans (h.satisfied hnot)
  · refine (h'.content ?_ (mt (hcomputes _).mp hnot)).trans (h.content hcalculate hnot)
    rwa [h.definition]

/-- An entry changes no more than a content. -/
theorem kept_content (hopen : n.definition.bind.calculate = none) (content : Content) :
    n.Kept book { n with content } where
  frame := rfl
  relevant := rfl
  readonly := rfl
  items := rfl
  required _ := rfl
  satisfied _ := rfl
  content hcalculate := by
    rw [hopen] at hcalculate
    exact nomatch hcalculate

theorem kept_storing (hbook : book.Derives) {kind : OutputKind} (hcomputes : n.Computes book kind)
    (v : OutputValue) : n.Kept book (n.storing kind v) := by
  have ⟨_, rules, hrules, hkind⟩ := hcomputes
  have hkinds := hbook _ rules hrules kind hkind
  simp only [List.mem_cons, List.not_mem_nil, or_false] at hkinds
  rcases hkinds with rfl | rfl | rfl
  · cases v with
    | flag b =>
      exact ⟨rfl, rfl, rfl, rfl, fun hnot => absurd hcomputes hnot, fun _ => rfl, fun _ _ => rfl⟩
    | text | items => exact .refl n
  · cases v with
    | text s =>
      exact ⟨rfl, rfl, rfl, rfl, fun _ => rfl, fun _ => rfl, fun _ hnot => absurd hcomputes hnot⟩
    | flag | items => exact .refl n
  · cases v with
    | flag b =>
      exact ⟨rfl, rfl, rfl, rfl, fun _ => rfl, fun hnot => absurd hcomputes hnot, fun _ _ => rfl⟩
    | text | items => exact .refl n

theorem Change.kept (hbook : book.Derives) (h : Change book n n') : n.Kept book n' := by
  cases h with
  | stored v hcomputes => exact kept_storing hbook hcomputes v
  | failed => exact ⟨rfl, rfl, rfl, rfl, fun _ => rfl, fun _ => rfl, fun _ _ => rfl⟩
  | emptied hrules hrelevant => simpa using hbook _ _ hrules _ hrelevant

end Node

namespace Tree

variable {book : RuleBook} {t t' t'' : Tree}

/-- The nodes of the later tree have kept what those of the earlier one have. -/
def Keeps (book : RuleBook) (t t' : Tree) : Prop :=
  ∀ x n', t'.get? x = some n' → ∃ n, t.get? x = some n ∧ n.Kept book n'

theorem Keeps.refl (t : Tree) : t.Keeps book t := fun _ n hn => ⟨n, hn, .refl n⟩

theorem Keeps.trans (h : t.Keeps book t') (h' : t'.Keeps book t'') : t.Keeps book t'' := by
  intro x n'' hn''
  obtain ⟨n', hn', hkept'⟩ := h' x n'' hn''
  obtain ⟨n, hn, hkept⟩ := h x n' hn'
  exact ⟨n, hn, hkept.trans hkept'⟩

theorem keeps_of_develops (hbook : book.Derives) (h : t.Develops book t') : t.Keeps book t' := by
  intro x n' hn'
  obtain ⟨n, hn, hchanges⟩ := h x n' hn'
  refine ⟨n, hn, hchanges.keep (Q := n.Kept book) ?_ (.refl n)⟩
  exact fun hchange hkept => hkept.trans (hchange.kept hbook)

/-- Only a content that is not calculated is open to entries. -/
theorem keeps_rewrite {id : NodeId} (hopen : t.isReadonly id = false) (content : Node → Content) :
    t.Keeps book (t.rewrite id content).2 := by
  intro x n' hn'
  rw [get?_rewrite] at hn'
  split at hn'
  next hx =>
    obtain ⟨n, hn, rfl⟩ := Option.map_eq_some_iff.mp hn'
    refine ⟨n, by rw [hx, hn], Node.kept_content ?_ _⟩
    have hcalculated : t.isCalculated id = false := (Bool.or_eq_false_iff.mp hopen).1
    simpa [isCalculated, hn] using hcalculated
  next => exact ⟨n', hn', .refl n'⟩

end Tree

end ReactiveForm
