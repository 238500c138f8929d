import Mathlib.Logic.Relation
import ReactiveForm.Proofs.Schedule.Termination

/-!
# What a pass does to a node

A pass works on each node by changes of three sorts: a result is stored, a failure is noted or taken
back, and a leaf that ceases to be relevant is emptied. So whatever these changes keep, a pass keeps.
-/

set_option autoImplicit false

namespace ReactiveForm

namespace Node

/-- The node with a result of the kind stored in it. -/
def storing (kind : OutputKind) (v : OutputValue) (n : Node) : Node :=
  match kind, v with
  | .bind .relevant, .flag b => { n with status.relevant := b }
  | .bind .readonly, .flag b => { n with status.readonly := b }
  | .bind .required, .flag b => { n with status.required := b }
  | .bind .constraint, .flag b => { n with status.satisfied := b }
  | .bind .calculate, .text s => { n with content := n.writing s }
  | .itemset, .items list =>
    let next : Node := { n with status.items := list }
    { next with content := next.revising }
  | _, _ => n

theorem storing_of_drops {kind : OutputKind} {v : OutputValue} (h : kind.drops v) :
    Node.storing kind v = id := by
  rcases kind with (_ | _ | _ | _ | _) | _ <;> cases v <;> first | rfl | cases h

/-- The node with a failure of the kind, or without one. -/
def failing (kind : OutputKind) (message : Option String) (n : Node) : Node :=
  { n with status.failures := n.status.failures.set kind message }

/-- The rules compute an output of the kind for the node. Ranges have no outputs, although they share
their reference with their instances. -/
def Computes (book : RuleBook) (n : Node) (kind : OutputKind) : Prop :=
  n.definition.type ≠ .range ∧
    ∃ rules, Table.get? book n.definition.reference = some rules ∧ kind ∈ rules.kinds

/-- A change that a pass under the rules may make to a node. -/
inductive Change (book : RuleBook) : Node → Node → Prop where
  | stored {n : Node} {kind : OutputKind} (v : OutputValue) :
    n.Computes book kind → Change book n (n.storing kind v)
  | failed {n : Node} {kind : OutputKind} (message : Option String) :
    n.Computes book kind → Change book n (n.failing kind message)
  | emptied {n : Node} {reference : String} {rules : Rules} :
    Table.get? book reference = some rules → .bind .relevant ∈ rules.kinds →
    Change book n { n with content := n.emptying }

/-- Changes that a pass may make to a node one after the other. -/
def Changes (book : RuleBook) : Node → Node → Prop := Relation.ReflTransGen (Change book)

/-- A property that each change keeps is kept by all of them. -/
theorem Changes.keep {book : RuleBook} {Q : Node → Prop}
    (hQ : ∀ {n n'}, Change book n n' → Q n → Q n') {n n' : Node} (h : Changes book n n')
    (hn : Q n) : Q n' := by
  induction h with
  | refl => exact hn
  | tail _ hchange ih => exact hQ hchange ih

end Node

namespace Tree

/-- The nodes of the later tree are those of the earlier one after changes of a pass. -/
def Develops (book : RuleBook) (t t' : Tree) : Prop :=
  ∀ x n', t'.get? x = some n' → ∃ n, t.get? x = some n ∧ Node.Changes book n n'

variable {book : RuleBook} {t t' t'' : Tree}

theorem Develops.refl (t : Tree) : t.Develops book t := fun _ n hn => ⟨n, hn, .refl⟩

theorem Develops.trans (h : t.Develops book t') (h' : t'.Develops book t'') :
    t.Develops book t'' := by
  intro x n'' hn''
  obtain ⟨n', hn', hchanges'⟩ := h' x n'' hn''
  obtain ⟨n, hn, hchanges⟩ := h x n' hn'
  exact ⟨n, hn, hchanges.trans hchanges'⟩

theorem Develops.of_node {id : NodeId} {g : Node → Node}
    (hget : ∀ x, t'.get? x = if x = id then (t.get? id).map g else t.get? x)
    (hg : ∀ n, t.get? id = some n → Node.Change book n (g n)) : t.Develops book t' := by
  intro x n' hn'
  rw [hget] at hn'
  split at hn'
  next hx =>
    obtain ⟨n, hn, rfl⟩ := Option.map_eq_some_iff.mp hn'
    exact ⟨n, by rw [hx, hn], .single (hg n hn)⟩
  next => exact ⟨n', hn', .refl⟩

end Tree

namespace Pass

variable {book : RuleBook} {p : Pass} {o : Output}

/-! ## One computation -/

theorem get?_apply_of_ne (hkind : o.kind ≠ .bind .relevant) (v : OutputValue) (x : NodeId) :
    (p.apply book o v).tree.get? x
      = if x = o.node then (p.tree.get? o.node).map (Node.storing o.kind v) else p.tree.get? x := by
  obtain ⟨node, kind⟩ := o
  -- only relevance reaches other nodes; every other result lands in the node of the output
  cases kind.lands v with
  | relevant b => exact absurd rfl hkind
  | readonly b => exact get?_setStatus _ _ _ _
  | required b => exact get?_setStatus _ _ _ _
  | constraint b => exact get?_setStatus _ _ _ _
  | calculate s =>
    change (p.wrote node (p.tree.write node s)).tree.get? x = _
    rw [Tree.write_eq, get?_wrote]
    rfl
  | itemset list =>
    change ((p.setStatus node fun s => { s with items := list }).wrote node
      ((p.setStatus node fun s => { s with items := list }).tree.reviseSelection node)).tree.get? x
        = _
    rw [Tree.reviseSelection_eq, get?_wrote, get?_setStatus, get?_setStatus]
    split
    · rw [if_pos rfl, Option.map_map]
      rfl
    · rfl
  | dropped h =>
    rw [apply_of_drops h, Node.storing_of_drops h, Option.map_id]
    split
    next hx =>
      rw [hx]
      rfl
    next => rfl

theorem develops_clearBelow {reference : String} {rules : Rules}
    (hrules : Table.get? book reference = some rules) (hkind : .bind .relevant ∈ rules.kinds)
    (p : Pass) (id : NodeId) : p.tree.Develops book (p.clearBelow id).tree := by
  intro x n' hn'
  rw [clearBelow, get?_clear] at hn'
  split at hn'
  next =>
    obtain ⟨n, hn, rfl⟩ := Option.map_eq_some_iff.mp hn'
    exact ⟨n, hn, .single (.emptied hrules hkind)⟩
  next => exact ⟨n', hn', .refl⟩

section

variable {n : Node} (hn : p.tree.get? o.node = some n) (hcomputes : n.Computes book o.kind)

include hn hcomputes

theorem develops_setRelevant (hrelevant : o.kind = .bind .relevant) (b : Bool) :
    p.tree.Develops book (p.setRelevant book o b).tree := by
  have ⟨_, rules, hrules, hkind⟩ := hcomputes
  have hflag : p.tree.Develops book (p.flagged o.node b).tree := by
    refine .of_node (g := Node.storing (.bind .relevant) (.flag b))
      (fun x => get?_flagged p o.node x b) fun m hm => ?_
    obtain rfl : n = m := Option.some.inj (hn.symm.trans hm)
    exact .stored (.flag b) (hrelevant ▸ hcomputes)
  rw [setRelevant_eq]
  split
  · exact hflag.trans (develops_clearBelow hrules (hrelevant ▸ hkind) _ _)
  · exact hflag
  · exact hflag

theorem develops_apply (v : OutputValue) : p.tree.Develops book (p.apply book o v).tree := by
  by_cases hrelevant : o.kind = .bind .relevant
  · unfold apply
    rw [hrelevant]
    cases v with
    | flag b => exact develops_setRelevant hn hcomputes hrelevant b
    | text _ => exact .refl p.tree
    | items _ => exact .refl p.tree
  · refine .of_node (get?_apply_of_ne hrelevant v) fun m hm => ?_
    obtain rfl : n = m := Option.some.inj (hn.symm.trans hm)
    exact .stored v hcomputes

theorem develops_compute (evaluate : Tree → Output → Outcome) :
    p.tree.Develops book (p.compute book evaluate o).tree := by
  have hget (message : Option String) (x : NodeId) :
      ((p.noted evaluate o).setFailure o message).tree.get? x
        = if x = o.node then (p.tree.get? o.node).map (Node.failing o.kind message)
          else p.tree.get? x :=
    get?_setStatus _ _ _ _
  have hfailure (message : Option String) :
      p.tree.Develops book ((p.noted evaluate o).setFailure o message).tree := by
    refine .of_node (hget message) fun m hm => ?_
    obtain rfl : n = m := Option.some.inj (hn.symm.trans hm)
    exact .failed message hcomputes
  rw [compute_eq]
  split
  next value _ =>
    have hclean : ((p.noted evaluate o).setFailure o none).tree.get? o.node
        = some (n.failing o.kind none) := by
      rw [hget, if_pos rfl, hn]
      rfl
    exact (hfailure none).trans (develops_apply hclean hcomputes value)
  next => exact hfailure _

end

/-! ## Passes -/

theorem develops_step (evaluate : Tree → Output → Outcome)
    (ho : o ∈ book.outputsAt p.tree o.node) :
    p.tree.Develops book (p.step book evaluate o).tree := by
  obtain ⟨_, rules, hrules, hkind⟩ := RuleBook.mem_outputsAt.mp ho
  obtain ⟨n, hn, hrange, hget⟩ := RuleBook.exists_definition_of_rulesAt hrules
  rcases p.step_cases o with ⟨heq, _⟩ | ⟨heq, _⟩ | ⟨heq, _⟩
  · rw [heq]
    exact .refl p.tree
  · rw [heq]
    exact .refl p.tree
  · rw [heq]
    exact develops_compute (p := p.unmarked o) hn ⟨hrange, rules, hget, hkind⟩ evaluate

variable {R : NodeId → Prop} {K : Output → Prop}

/-- A pass that keeps to declared outputs works on nodes by changes of these sorts only. -/
theorem develops_runUpTo (evaluate : Tree → Output → Outcome) (n : Nat) (hc : p.tree.Coherent)
    (h : p.Within book R K) (hK : ∀ q, K q → q ∈ book.outputsAt p.tree q.node) :
    p.tree.Develops book (runUpTo book evaluate n p).tree := by
  induction n generalizing p with
  | zero => exact .refl p.tree
  | succ n ih =>
    rw [runUpTo]
    split
    next => exact .refl p.tree
    next o hnext =>
      have ho := Schedule.next?_mem hnext
      have hfollows : p.Follows (p.step book evaluate o) := follows_step evaluate hc o
      have hstep : p.tree.Develops book (p.step book evaluate o).tree :=
        develops_step evaluate (hK o (h.dirty o ho))
      refine hstep.trans (ih hfollows.coherent (h.step evaluate hc ho) fun q hq => ?_)
      rw [RuleBook.outputsAt_eq hfollows.frame]
      exact hK q hq

end Pass

end ReactiveForm
