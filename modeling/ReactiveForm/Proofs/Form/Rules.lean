import ReactiveForm.Proofs.Form.Reachable
import ReactiveForm.Proofs.Rules

/-!
# The rules of a form

A form keeps the rules that it has been loaded with. The outputs of a node are therefore those that
the first definition with the reference of the node declares, in the definition of the form.
-/

set_option autoImplicit false

namespace ReactiveForm

namespace Form

variable {P : Definition → Prop} {f g : Form} {r : Request} {op : Operation}

theorem Begins.definition (h : Begins f r g) :
    g.definition = f.definition ∧ g.logic = f.logic ∧ g.config = f.config := by
  cases h <;> exact ⟨rfl, rfl, rfl⟩

theorem started_rules (h : f.started op = some g) :
    g.definition = f.definition ∧ g.logic.rules = f.logic.rules := by
  rcases started_eq_some h with ⟨r, rfl, hbegun⟩ | ⟨library, rfl⟩
  · obtain ⟨hdefinition, hlogic, _⟩ := (begins_of_begun hbegun).definition
    exact ⟨hdefinition, congrArg Logic.rules hlogic⟩
  · exact ⟨rfl, rfl⟩

/-- The rules are those of the definition, whatever has been done to the form. -/
theorem Reachable.rules (h : f.Reachable P) :
    RuleBook.ofDefinition f.definition = .ok f.logic.rules := by
  induction h with
  | load _ _ hload =>
    obtain ⟨rules, hrules, rfl⟩ := exists_of_load hload
    exact hrules
  | @operate f op _ _ ih =>
    rcases f.carryOut_cases op with ⟨g, hstarted, heq⟩ | ⟨_, cache, heq⟩
    · obtain ⟨hdefinition, hrules⟩ := started_rules hstarted
      rw [heq]
      change RuleBook.ofDefinition g.definition = .ok g.logic.rules
      rw [hdefinition, hrules]
      exact ih
    · rw [heq]
      exact ih

theorem load_fails_iff {d : Definition} {config : Config} {now : Moment} :
    (∃ error, load d config now = .error error) ↔ ∃ error, RuleBook.ofDefinition d = .error error := by
  unfold load
  cases RuleBook.ofDefinition d with
  | error e => exact ⟨fun _ => ⟨e, rfl⟩, fun _ => ⟨e, rfl⟩⟩
  | ok rules =>
    constructor
    · rintro ⟨_, hload⟩
      exact nomatch hload
    · rintro ⟨_, hrules⟩
      exact nomatch hrules

/-- A form fails to load if and only if some definition that is the first with its reference has an
expression that cannot be read. In a form that has been reached, the outputs of a live node are
those that the first definition with its reference declares, with the expressions declared there. -/
theorem rules_of_first (d : Definition) (config : Config) (now : Moment) :
    ((∃ error, load d config now = .error error) ↔
      ∃ e, d.first? e.reference = some e ∧ ¬ e.Readable) ∧
    ∀ f : Form, f.Reachable (fun _ => True) → f.definition = d →
      ∀ id n, f.tree.get? id = some n → n.definition.type ≠ .range →
        match d.first? n.definition.reference with
        | none => f.logic.rules.outputsAt f.tree id = []
        | some e => f.logic.rules.outputsAt f.tree id = e.kinds.map (fun kind => ⟨id, kind⟩) ∧
          ∃ rules, f.logic.rules.rulesAt f.tree id = some rules ∧ rules.Spells e := by
  refine ⟨load_fails_iff.trans RuleBook.ofDefinition_fails_iff, ?_⟩
  rintro f hf rfl id n hn hrange
  -- the rules of a form never change after they have been read
  obtain ⟨_, hfirst, hother⟩ := RuleBook.entered_of_ofDefinition hf.rules
  have hrules : f.logic.rules.rulesAt f.tree id
      = Table.get? f.logic.rules n.definition.reference := by
    simp [RuleBook.rulesAt, Tree.definition?, hn, hrange]
  split
  next hnone =>
    unfold RuleBook.outputsAt
    rw [hrules, hother _ hnone rfl]
  next e hsome =>
    obtain ⟨rules, hget, hspells⟩ := hfirst _ e hsome rfl
    refine ⟨?_, rules, hrules.trans hget, hspells⟩
    unfold RuleBook.outputsAt
    rw [hrules, hget, ← hspells.kinds_eq]

end Form

/-! ## An instance with expressions of its own -/

def Description.masked : Description where
  name := "f"
  children := [{
    name := "r"
    kind := some .range
    children := [{ name := "x", bind := { calculate := some "'a'" } }]
    instances := [{ children := [{ name := "x", bind := { relevant := some "!" } }] }] }]

def Definition.masked : Definition :=
  .root ⟨"/f", "f", {}, none, none⟩ [
    .range ⟨"/f/r", "r", {}, none, none⟩
      (.inst ⟨"/f/r", "r", {}, none, none⟩ [
        .value ⟨"/f/r/x", "x", { calculate := some "'a'" }, none, none⟩ ""])
      [.inst ⟨"/f/r", "r", {}, none, none⟩ [
        .value ⟨"/f/r/x", "x", { relevant := some "!" }, none, none⟩ ""]]]

def RuleBook.masked : RuleBook :=
  [("/f/r/x", { expressions := [(.calculate, .text "a")] }), ("/f/r", {}), ("/f", {})]

set_option maxRecDepth 20000 in
theorem Description.toDefinition_masked : Description.masked.toDefinition = .ok .masked := by rfl

set_option maxRecDepth 20000 in
theorem RuleBook.ofDefinition_masked : RuleBook.ofDefinition .masked = .ok .masked := by rfl

namespace Form

def masked : Form := (opened .masked {} .epoch .masked).marked.recalculate

theorem load_masked : load .masked = .ok masked := load_of_ofDefinition RuleBook.ofDefinition_masked {} .epoch

/-- The node of the instance declares its relevance, but its content is calculated, as the template
declares. -/
theorem rules_of_first_masked : masked.tree.contains ⟨3, 0⟩ ∧
    masked.logic.rules.outputsAt masked.tree ⟨3, 0⟩ = [⟨⟨3, 0⟩, .bind .calculate⟩] := by
  have hnode : (masked.tree.get? ⟨3, 0⟩).map (fun n => (n.definition.header, n.definition.type))
      = some (⟨"/f/r/x", "x", { relevant := some "!" }, none, none⟩, .value) := by decide +kernel
  obtain ⟨n, hn, heq⟩ := Option.map_eq_some_iff.mp hnode
  obtain ⟨hheader, htype⟩ := Prod.mk.inj heq
  have hreference : n.definition.reference = "/f/r/x" := congrArg Header.reference hheader
  have hreachable : masked.Reachable fun _ => True := .load rfl (fun _ _ => trivial) load_masked
  have hrules := (rules_of_first .masked {} .epoch).2 masked hreachable rfl ⟨3, 0⟩ n hn
    (by simp [htype])
  have hfirst : Definition.masked.first? n.definition.reference
      = some (.value ⟨"/f/r/x", "x", { calculate := some "'a'" }, none, none⟩ "") := by
    rw [hreference]
    rfl
  rw [hfirst] at hrules
  exact ⟨Arena.contains_iff.mpr ⟨n, hn⟩, hrules.1.trans (by decide +kernel)⟩

/-- The form loads, although an expression of the instance cannot be read. -/
theorem load_unread_masked :
    ¬ ∀ (description : Description) (d : Definition), description.toDefinition = .ok d →
      ((∃ error, load d = .error error) ↔ ∃ e ∈ d.binders, ¬ e.Readable) ∧
      ∀ f : Form, f.Reachable (fun _ => True) → f.definition = d →
        ∀ id n, f.tree.get? id = some n → n.definition.type ≠ .range →
          f.logic.rules.outputsAt f.tree id = n.definition.kinds.map (fun kind => ⟨id, kind⟩) ∧
          ∃ rules, f.logic.rules.rulesAt f.tree id = some rules ∧ rules.Spells n.definition := by
  intro h
  have hiff := (h _ _ Description.toDefinition_masked).1
  have hunread : ¬ (Definition.value ⟨"/f/r/x", "x", { relevant := some "!" }, none, none⟩
      "").Readable := by
    intro hreadable
    obtain ⟨e, he⟩ := hreadable "!" (by decide +kernel)
    have hfails : (Expr.read "!").isOk = false := by decide +kernel
    rw [he] at hfails
    cases hfails
  have hpart : Definition.value ⟨"/f/r/x", "x", { relevant := some "!" }, none, none⟩ ""
      ∈ Definition.masked.binders := by
    simp [Definition.masked, Definition.binders, Definition.parts, Definition.partsAmong,
      Definition.type]
  obtain ⟨error, herror⟩ := hiff.mpr ⟨_, hpart, hunread⟩
  cases load_masked.symm.trans herror

end Form

end ReactiveForm
