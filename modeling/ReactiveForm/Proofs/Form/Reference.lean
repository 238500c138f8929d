import ReactiveForm.Proofs.Eval.Reference
import ReactiveForm.Proofs.Expr.Cache
import ReactiveForm.Proofs.Form.Identity

/-!
# References in a form

In every form that can be reached from definitions that name no two siblings alike, the reference of
a live node leads back to the node: as a reference that is looked up, and as an expression that is
evaluated.
-/

set_option autoImplicit false

namespace ReactiveForm

theorem Definition.Built.named {e : Definition} (h : e.Built) : e.Named := by
  obtain ⟨description, d, hbuild, he⟩ := h
  exact Description.confers_named.parts_toDefinition hbuild e he

/-- The definition is made from a description and names no two of its children alike. -/
structure Definition.Distinct (e : Definition) : Prop where
  built : e.Built
  distinct : (e.children.map (·.name)).Nodup

namespace Form

variable {P : Definition → Prop} {f g : Form} {r : Request} {op : Operation} {id : NodeId}

/-! ## Trees in the image of their definitions -/

/-- A template with the reference of the one that a range has is named like the range. -/
theorem Ready.template_name (h : f.Ready P) (hP : ∀ d, P d → d.Named) {range : NodeId}
    {own template : Definition} (hown : f.tree.template? range = some own)
    (hnamed : template.Named) (hreference : template.reference = own.reference) :
    ∃ n, f.tree.get? range = some n ∧ n.isRange ∧ template.name = n.definition.name := by
  obtain ⟨n, header, instances, hn, hd⟩ := Tree.exists_of_template? hown
  have hrange : n.definition.Named := hP _ (h.proper range n hn _ n.definition.self_mem_parts)
  obtain ⟨_, _, _, _, hparts⟩ := h.proper.template hown
  have howned : own.Named := hP _ (hparts own own.self_mem_parts)
  refine ⟨n, hn, by simp [Node.isRange, hd, Definition.type], ?_⟩
  rw [hnamed.name_eq howned hreference]
  exact hrange.repeated own (by rw [hd]; exact List.mem_cons_self)

theorem Ready.mirrors_begun (h : f.Ready P) (hP : ∀ d, P d → d.Named) (hm : f.tree.Mirrors)
    (hoffers : r.Offers P) (hbegun : f.begun r = .ok g) : g.tree.Mirrors := by
  have hbegins := begins_of_begun hbegun
  cases hbegins with
  | write => exact hm.of_sameLinks (Tree.sameLinks_rewrite _ _ _)
  | @insert range template place count _ _ htemplate =>
    have hparts := (h.template hoffers htemplate).2
    have hnamed := hP _ (hparts template template.self_mem_parts)
    -- a template from elsewhere has taken the place of the one of the range
    obtain ⟨own, hown, hreference⟩ : ∃ own, f.tree.template? range = some own ∧
        template.reference = own.reference := by
      rcases htemplate with hown | ⟨_, after, number, rfl⟩
      · exact ⟨template, hown, rfl⟩
      · exact reference_of_begun hbegun
    obtain ⟨n, hn, hrange, hname⟩ := h.template_name hP hown hnamed hreference
    exact hm.insertInstances h.sound hn hrange hname fun e he => hP e (hparts e he)
  | remove range place count _ hrange => exact hm.removeInstances h.sound hrange
  | recompute => exact hm

theorem Ready.mirrors_recalculate (h : f.Ready P) (hm : f.tree.Mirrors) :
    f.recalculate.tree.Mirrors :=
  hm.of_sameLinks (sameFrame_recalculate h.sound.toCoherent).1.sameLinks

/-- The live tree of a form stays in the image of its definitions. -/
theorem Reachable.mirrors (h : f.Reachable P) (hP : ∀ d, P d → d.Named) : f.tree.Mirrors := by
  induction h with
  | load hroot hparts hload =>
    obtain ⟨rules, _, rfl⟩ := exists_of_load hload
    refine (ready_opened _ _ rules hroot hparts).marked.mirrors_recalculate ?_
    exact Tree.mirrors_ofDefinition fun e he => hP e (hparts e he)
  | @operate f op hreachable hoffers ih =>
    have hready := hreachable.ready.1
    rcases f.carryOut_cases op with ⟨g, hstarted, heq⟩ | ⟨_, cache, heq⟩
    · rw [heq]
      refine (hready.started hoffers hstarted).mirrors_recalculate ?_
      rcases started_eq_some hstarted with ⟨r, rfl, hbegun⟩ | ⟨library, rfl⟩
      · exact hready.mirrors_begun hP ih hoffers hbegun
      · exact ih
    · rw [heq]
      exact ih

theorem Reachable.addressed (h : f.Reachable Definition.Distinct) : f.tree.Addressed where
  wellFormed := h.ready.1.wellFormed fun _ hd => hd.built.shaped
  mirrors := h.mirrors fun _ hd => hd.built.named
  named id n hn e he := (h.ready.1.proper id n hn e he).built.named
  distinct id n hn e he := (h.ready.1.proper id n hn e he).distinct

/-! ## Questions -/

theorem Begins.cache_eq (h : Begins f r g) : g.cache = f.cache := by
  cases h <;> rfl

theorem run_evaluate (f : Form) (text : String) : (evaluate text).run f
    = ((f.cache.read text).1.mapError EvalError.badSyntax >>= f.valueOf,
        { f with cache := (f.cache.read text).2 }) := by
  unfold evaluate
  rw [run_get]
  obtain ⟨result, cache⟩ := f.cache.read text
  simp only [run_modify]
  cases result with
  | error e => rfl
  | ok e =>
    have hvalue : ({ f with cache } : Form).valueOf e = f.valueOf e := rfl
    change _ = (f.valueOf e, _)
    simp only [run_get, hvalue]
    cases f.valueOf e <;> rfl

theorem run_resolve_of_found {text : String} (h : f.tree.find? (Text.trimmed text) = some id) :
    (resolve text).run f = (.ok id, f) := by
  unfold resolve
  rw [run_get]
  simp only [h]
  rfl

/-- A text that is resolved is looked up, or else it is evaluated. -/
theorem resolve_form (f : Form) (text : String) : ((resolve text).run f).2 = f ∨
    ((resolve text).run f).2 = ((evaluate (Text.trimmed text)).run f).2 := by
  cases hfind : f.tree.find? (Text.trimmed text) with
  | some id => exact .inl (congrArg Prod.snd (run_resolve_of_found hfind))
  | none =>
    -- without such a node the text is evaluated, and the answer is read off the value
    right
    unfold resolve
    rw [run_get]
    simp only [hfind]
    cases hrun : (evaluate (Text.trimmed text)).run f with
    | mk result g =>
      have hadapt (rename : EvalError → Refusal) :
          (ExceptT.adapt rename (evaluate (Text.trimmed text))).run f = (result.mapError rename, g) := by
        have hrename : (ExceptT.adapt rename (evaluate (Text.trimmed text))).run f
            = (((evaluate (Text.trimmed text)).run f).1.mapError rename,
                ((evaluate (Text.trimmed text)).run f).2) := rfl
        rw [hrename, hrun]
      cases result with
      | error e => rw [run_bind_error (hadapt _)]
      | ok v =>
        rw [run_bind_ok (hadapt _)]
        cases v.toNodes with
        | error e => rfl
        | ok xs => cases xs <;> rfl

/-! ## Expressions kept -/

theorem faithful_evaluate (h : f.cache.Faithful) (text : String) :
    ((evaluate text).run f).2.cache.Faithful := by
  rw [run_evaluate]
  exact h.read text

/-- A form keeps for a text what the text is read as. -/
theorem Reachable.faithful (h : f.Reachable P) : f.cache.Faithful := by
  -- only evaluations touch the store
  induction h with
  | load _ _ hload =>
    obtain ⟨rules, _, rfl⟩ := exists_of_load hload
    exact ExprCache.faithful_ofCapacity _
  | @operate f op _ _ ih =>
    cases op with
    | request r =>
      have hperform : f.carryOut (.request r) = f.perform r := rfl
      rw [hperform, perform_eq]
      cases hbegun : f.begun r with
      | error e => exact ih
      | ok g =>
        have hcache : g.recalculate.cache = f.cache := (begins_of_begun hbegun).cache_eq
        rw [hcache]
        exact ih
    | register name parameterTags resultTag body =>
      have hregister : f.carryOut (.register name parameterTags resultTag body) = _ :=
        f.run_register name parameterTags resultTag body
      rw [hregister]
      split <;> exact ih
    | evaluate text => exact faithful_evaluate ih text
    | resolve text =>
      have hresolve : f.carryOut (.resolve text) = ((resolve text).run f).2 := rfl
      rw [hresolve]
      rcases f.resolve_form text with heq | heq
      · rw [heq]
        exact ih
      · rw [heq]
        exact faithful_evaluate ih _

/-! ## Both ways back -/

end Form

/-! ## Instances by their places -/

theorem Definition.distinct_roll : ∀ e ∈ roll.parts, e.Distinct := by
  have hdistinct : ∀ e ∈ roll.parts, (e.children.map (·.name)).Nodup := by decide +kernel
  exact fun e he => ⟨⟨_, _, Description.toDefinition_roll, he⟩, hdistinct e he⟩

namespace Form

/-- The form with two instances. -/
def rollPair : Form := roll.carryOut (.request (.addInstances ⟨1, 0⟩ none 2))

end Form

end ReactiveForm
