import ReactiveForm.Proofs.Schedule.Nodes

/-!
# What a pass leaves alone

Each part of the status of a node belongs to one kind of output. A pass changes such a part only by
a computation of that output: the failure by any computation, the result by one without failure. The
content of a node is changed by the outputs that fill it, and by the relevance of the node or of an
ancestor, which may empty it.
-/

set_option autoImplicit false

namespace ReactiveForm

/-- The last result of outputs of a kind. What is calculated goes into the content instead. -/
def Status.stored (s : Status) : OutputKind → Option OutputValue
  | .bind .relevant => some (.flag s.relevant)
  | .bind .readonly => some (.flag s.readonly)
  | .bind .required => some (.flag s.required)
  | .bind .constraint => some (.flag s.satisfied)
  | .bind .calculate => none
  | .itemset => some (.items s.items)

namespace Node

theorem kind_of_stored_ne {n : Node} {kind other : OutputKind} {v : OutputValue}
    (h : (n.storing kind v).status.stored other ≠ n.status.stored other) : other = kind := by
  contrapose! h
  rcases kind with (_ | _ | _ | _ | _) | _ <;> cases v <;>
    rcases other with (_ | _ | _ | _ | _) | _ <;> first | rfl | exact absurd rfl h

theorem failures_storing (n : Node) (kind : OutputKind) (v : OutputValue) :
    (n.storing kind v).status.failures = n.status.failures := by
  rcases kind with (_ | _ | _ | _ | _) | _ <;> cases v <;> rfl

theorem fills_of_content_ne {n : Node} {kind : OutputKind} {v : OutputValue}
    (h : (n.storing kind v).content ≠ n.content) : kind = .bind .calculate ∨ kind = .itemset := by
  rcases kind with (_ | _ | _ | _ | _) | _
  · cases v <;> exact absurd rfl h
  · cases v <;> exact absurd rfl h
  · cases v <;> exact absurd rfl h
  · exact .inl rfl
  · cases v <;> exact absurd rfl h
  · exact .inr rfl

theorem stored_failing (n : Node) (kind other : OutputKind) (message : Option String) :
    (n.failing kind message).status.stored other = n.status.stored other := by
  rcases other with (_ | _ | _ | _ | _) | _ <;> rfl

end Node

namespace Tree

/-- The last result of an output. -/
def stored? (t : Tree) (q : Output) : Option OutputValue :=
  (t.get? q.node).bind (·.status.stored q.kind)

/-- Why an output could not be computed. -/
def failure? (t : Tree) (q : Output) : Option String :=
  (t.get? q.node).bind (·.status.failures.get q.kind)

/-- Between the trees, outputs with the property `C` have been computed, and those with the property
`S` without failure. -/
structure Touches (C S : Output → Prop) (t t' : Tree) : Prop where
  frame : t.SameFrame t'
  stored : ∀ q, t'.stored? q ≠ t.stored? q → S q
  failure : ∀ q, t'.failure? q ≠ t.failure? q → C q
  content : ∀ x, t'.content? x ≠ t.content? x → S ⟨x, .bind .calculate⟩ ∨ S ⟨x, .itemset⟩ ∨
    ∃ y ∈ x :: t.ancestors x, S ⟨y, .bind .relevant⟩

variable {C S : Output → Prop} {t t' t'' : Tree}

theorem SameFrame.live (h : t.SameFrame t') {id : NodeId} (hlive : ∃ n, t.get? id = some n) :
    ∃ n', t'.get? id = some n' := by
  rw [← contains_iff] at hlive ⊢
  rwa [h.contains_eq]

theorem Touches.refl (t : Tree) : t.Touches C S t :=
  ⟨.refl t, fun _ h => absurd rfl h, fun _ h => absurd rfl h, fun _ h => absurd rfl h⟩

theorem Touches.trans (h : t.Touches C S t') (h' : t'.Touches C S t'') : t.Touches C S t'' where
  frame := h.frame.trans h'.frame
  stored q hq := by
    by_cases hsame : t'.stored? q = t.stored? q
    · exact h'.stored q (hsame ▸ hq)
    · exact h.stored q hsame
  failure q hq := by
    by_cases hsame : t'.failure? q = t.failure? q
    · exact h'.failure q (hsame ▸ hq)
    · exact h.failure q hsame
  content x hx := by
    by_cases hsame : t'.content? x = t.content? x
    · have hchanged := h'.content x (hsame ▸ hx)
      rwa [h.frame.ancestors_eq] at hchanged
    · exact h.content x hsame

theorem Touches.mono {C' S' : Output → Prop} (h : t.Touches C S t') (hC : ∀ q, C q → C' q)
    (hS : ∀ q, S q → S' q) : t.Touches C' S' t' where
  frame := h.frame
  stored q hq := hS q (h.stored q hq)
  failure q hq := hC q (h.failure q hq)
  content x hx := by
    rcases h.content x hx with hx | hx | ⟨y, hy, hx⟩
    · exact .inl (hS _ hx)
    · exact .inr (.inl (hS _ hx))
    · exact .inr (.inr ⟨y, hy, hS _ hx⟩)

/-- One node is changed. -/
theorem Touches.of_node {id : NodeId} {g : Node → Node} (hframe : t.SameFrame t')
    (hget : ∀ x, t'.get? x = if x = id then (t.get? id).map g else t.get? x)
    (hstored : ∀ n kind, (g n).status.stored kind ≠ n.status.stored kind → S ⟨id, kind⟩)
    (hfailure : ∀ n kind,
      (g n).status.failures.get kind ≠ n.status.failures.get kind → C ⟨id, kind⟩)
    (hcontent : ∀ n, (g n).content ≠ n.content →
      S ⟨id, .bind .calculate⟩ ∨ S ⟨id, .itemset⟩ ∨ S ⟨id, .bind .relevant⟩) :
    t.Touches C S t' := by
  have hother {x : NodeId} (hx : x ≠ id) : t'.get? x = t.get? x := (hget x).trans (if_neg hx)
  have hself : t'.get? id = (t.get? id).map g := (hget id).trans (if_pos rfl)
  -- results, failures and contents differ at the one node only, and there by `hstored`, `hfailure`
  -- and `hcontent`
  refine ⟨hframe, fun ⟨x, kind⟩ hq => ?_, fun ⟨x, kind⟩ hq => ?_, fun x hx => ?_⟩
  · by_cases hid : x = id
    · subst hid
      cases hn : t.get? x with
      | none => exact absurd (by simp [stored?, hself, hn]) hq
      | some n => exact hstored n kind (by simpa [stored?, hself, hn] using hq)
    · exact absurd (by simp [stored?, hother hid]) hq
  · by_cases hid : x = id
    · subst hid
      cases hn : t.get? x with
      | none => exact absurd (by simp [failure?, hself, hn]) hq
      | some n => exact hfailure n kind (by simpa [failure?, hself, hn] using hq)
    · exact absurd (by simp [failure?, hother hid]) hq
  · by_cases hid : x = id
    · subst hid
      cases hn : t.get? x with
      | none => exact absurd (by simp [content?, hself, hn]) hx
      | some n =>
        rcases hcontent n (by simpa [content?, hself, hn] using hx) with h | h | h
        · exact .inl h
        · exact .inr (.inl h)
        · exact .inr (.inr ⟨x, List.mem_cons_self, h⟩)
    · exact absurd (by simp [content?, hother hid]) hx

end Tree

namespace Pass

variable {book : RuleBook} {evaluate : Tree → Output → Outcome} {p : Pass} {o : Output}
  {C S : Output → Prop}

/-! ## One computation -/

theorem touches_setFailure (h : p.tree.Coherent) (message : Option String) :
    p.tree.Touches (· = o) S (p.setFailure o message).tree := by
  refine .of_node (g := Node.failing o.kind message) (coherent_setStatus h o.node _).1
    (fun x => get?_setStatus _ _ _ _) (fun n kind hne => ?_) (fun n kind hne => ?_)
    fun n hne => absurd rfl hne
  · exact absurd (n.stored_failing o.kind kind message) hne
  · by_contra hother
    refine hne ((Failures.get_set _ _ _ _).trans (if_neg ?_))
    rintro rfl
    exact hother rfl

/-- What ceases to be relevant is emptied, and nothing else about it changes. -/
theorem touches_clearBelow (h : p.tree.Coherent) (hlive : ∃ n, p.tree.get? o.node = some n)
    (hkind : o.kind = .bind .relevant) :
    p.tree.Touches C (· = o) (p.clearBelow o.node).tree := by
  have hwrites : Writes [] p (p.clearBelow o.node) := writes_clear _ h
  have hget := p.get?_clearBelow o.node
  refine ⟨hwrites.frame, fun q hq => ?_, fun q hq => ?_, fun x hx => .inr (.inr ⟨o.node, ?_, ?_⟩)⟩
  · have hstatus := congrArg (Option.bind · (Status.stored · q.kind)) (hget q.node).1
    exact absurd (by simpa [Tree.stored?, Option.bind_map, Function.comp_def] using hstatus) hq
  · have hstatus := congrArg (Option.bind · (Failures.get ·.failures q.kind)) (hget q.node).1
    exact absurd (by simpa [Tree.failure?, Option.bind_map, Function.comp_def] using hstatus) hq
  · refine (h.connected.mem_subtree_iff_mem_ancestors hlive).mp ?_
    by_contra hout
    exact hx (by rw [Tree.content?, Tree.content?, (hget x).2 hout])
  · cases o
    exact congrArg (Output.mk _) hkind.symm

theorem touches_setRelevant (h : p.tree.Coherent) (hlive : ∃ n, p.tree.get? o.node = some n)
    (hkind : o.kind = .bind .relevant) (b : Bool) :
    p.tree.Touches C (· = o) (p.setRelevant book o b).tree := by
  have hwrites : Writes book p (p.flagged o.node b) := writes_flagged h o.node b
  have hflag : p.tree.Touches C (· = o) (p.flagged o.node b).tree := by
    refine .of_node (g := Node.storing (.bind .relevant) (.flag b)) hwrites.frame
      (fun x => p.get?_flagged o.node x b) (fun n kind hne => ?_)
      (fun n kind hne => absurd rfl hne) fun n hne => absurd rfl hne
    obtain rfl := Node.kind_of_stored_ne hne
    cases o
    exact congrArg (Output.mk _) hkind.symm
  have hlive' := hwrites.frame.live hlive
  rw [setRelevant_eq]
  split
  · exact hflag.trans (touches_clearBelow hwrites.coherent hlive' hkind)
  · exact hflag
  · exact hflag

theorem touches_apply (h : p.tree.Coherent) (hlive : ∃ n, p.tree.get? o.node = some n)
    (v : OutputValue) : p.tree.Touches C (· = o) (p.apply book o v).tree := by
  by_cases hrelevant : o.kind = .bind .relevant
  · unfold apply
    rw [hrelevant]
    cases v with
    | flag b => exact touches_setRelevant h hlive hrelevant b
    | text _ => exact .refl p.tree
    | items _ => exact .refl p.tree
  · refine .of_node (writes_apply h o v).frame (get?_apply_of_ne hrelevant v)
      (fun n kind hne => ?_) (fun n kind hne => ?_) fun n hne => ?_
    · rw [Node.kind_of_stored_ne hne]
    · exact absurd (by rw [n.failures_storing]) hne
    · rcases Node.fills_of_content_ne hne with hkind | hkind
      · exact .inl (hkind ▸ rfl)
      · exact .inr (.inl (hkind ▸ rfl))

/-- A computation that fails leaves the results as they are. -/
theorem touches_compute (book : RuleBook) (evaluate : Tree → Output → Outcome)
    (h : p.tree.Coherent) (hlive : ∃ n, p.tree.get? o.node = some n) :
    p.tree.Touches (· = o) (fun q => q = o ∧ ∃ v, (evaluate p.tree o).result = .ok v)
      (p.compute book evaluate o).tree := by
  have hnoted : (p.noted evaluate o).tree.Coherent := h
  have hfailure (message : Option String) :
      p.tree.Touches (· = o) (fun q => q = o ∧ ∃ v, (evaluate p.tree o).result = .ok v)
        ((p.noted evaluate o).setFailure o message).tree :=
    touches_setFailure hnoted message
  rw [compute_eq]
  split
  next v hv =>
    have hclean : Writes book (p.noted evaluate o) ((p.noted evaluate o).setFailure o none) :=
      writes_setStatus hnoted _ _
    have hlive' := hclean.frame.live hlive
    have hresult : ((p.noted evaluate o).setFailure o none).tree.Touches (· = o) (· = o)
        (((p.noted evaluate o).setFailure o none).apply book o v).tree :=
      touches_apply hclean.coherent hlive' v
    exact (hfailure none).trans (hresult.mono (fun _ hq => hq) fun q hq => ⟨hq, v, hv⟩)
  next => exact hfailure _

/-! ## Passes -/

/-- In one of the first `n` steps, the output is computed without failure. -/
def SucceedsWithin (book : RuleBook) (evaluate : Tree → Output → Outcome) (p : Pass) (n : Nat)
    (o : Output) : Prop :=
  ∃ k < n, ∃ v, (runUpTo book evaluate k p).schedule.next? = some o ∧
    (runUpTo book evaluate (k + 1) p).log = o :: (runUpTo book evaluate k p).log ∧
    (evaluate (runUpTo book evaluate k p).tree o).result = .ok v

theorem SucceedsWithin.succ {n : Nat} (h : p.SucceedsWithin book evaluate n o) :
    p.SucceedsWithin book evaluate (n + 1) o := by
  obtain ⟨k, hk, hsucceeds⟩ := h
  exact ⟨k, Nat.lt_succ_of_lt hk, hsucceeds⟩

theorem log_compute (h : p.tree.Coherent) (o : Output) :
    (p.compute book evaluate o).log = o :: p.log := by
  have hwrites : Writes book (p.noted evaluate o) (p.compute book evaluate o) := writes_compute h o
  exact hwrites.log

theorem touches_step (book : RuleBook) (evaluate : Tree → Output → Outcome) (h : p.tree.Coherent)
    (o : Output) :
    p.tree.Touches (· ∈ (p.step book evaluate o).log)
      (fun q => q = o ∧ (p.step book evaluate o).log = o :: p.log ∧
        ∃ v, (evaluate p.tree o).result = .ok v)
      (p.step book evaluate o).tree ∧ p.log ⊆ (p.step book evaluate o).log := by
  rcases p.step_cases o with ⟨heq, _⟩ | ⟨heq, _⟩ | ⟨heq, hlive, _⟩
  · rw [heq]
    exact ⟨.refl p.tree, List.Subset.refl _⟩
  · rw [heq]
    exact ⟨.refl p.tree, List.Subset.refl _⟩
  · rw [heq]
    have hunmarked : (p.unmarked o).tree.Coherent := h
    have hlog : ((p.unmarked o).compute book evaluate o).log = o :: p.log :=
      log_compute hunmarked o
    have htouches := touches_compute book evaluate hunmarked (Tree.contains_iff.mp hlive)
    rw [hlog]
    refine ⟨htouches.mono ?_ fun q ⟨hq, hv⟩ => ⟨hq, rfl, hv⟩, List.subset_cons_self _ _⟩
    rintro q rfl
    exact List.mem_cons_self

/-- A pass touches what belongs to the outputs that it computes, and results only where it computes
them without failure. -/
theorem touches_runUpTo (h : p.tree.Coherent) (n : Nat) :
    p.tree.Touches (· ∈ (runUpTo book evaluate n p).log) (p.SucceedsWithin book evaluate n)
      (runUpTo book evaluate n p).tree := by
  induction n with
  | zero => exact .refl p.tree
  | succ n ih =>
    cases hnext : (runUpTo book evaluate n p).schedule.next? with
    | none =>
      rw [runUpTo_add, runUpTo_of_next? hnext]
      exact ih.mono (fun _ hq => hq) fun _ hq => hq.succ
    | some o =>
      have hstep := runUpTo_succ_of_next? hnext
      have hfollows : p.Follows (runUpTo book evaluate n p) := follows_runUpTo evaluate n h
      obtain ⟨htouches, hlog⟩ := touches_step book evaluate hfollows.coherent o
      rw [← hstep] at htouches hlog
      refine (ih.mono (fun _ hq => hlog hq) fun _ hq => hq.succ).trans ?_
      refine htouches.mono (fun _ hq => hq) ?_
      rintro q ⟨rfl, hcomputed, v, hv⟩
      exact ⟨n, Nat.lt_succ_self n, v, hnext, hcomputed, hv⟩

end Pass

end ReactiveForm
