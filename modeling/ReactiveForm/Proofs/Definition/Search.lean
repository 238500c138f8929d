import ReactiveForm.Proofs.Definition.Defaults
import ReactiveForm.Proofs.Definition.References

/-!
# Searching definitions

A definition is found by its reference if any definition outside the default instances has it, and
the first of these is. As a repeat comes before its template, no template is ever found. Definitions
of the same name may stand next to each other, and then the first of them is found whether it is a
repeat or not.
-/

set_option autoImplicit false

namespace ReactiveForm

namespace Definition

mutual

/-- The definition and those that it holds outside of default instances, depth first. -/
def outline : Definition → List Definition
  | root h cs => root h cs :: outlineAmong cs
  | group h cs => group h cs :: outlineAmong cs
  | range h template instances => range h template instances :: outline template
  | inst h cs => inst h cs :: outlineAmong cs
  | value h default => [value h default]
  | select h mode default items itemset => [select h mode default items itemset]

def outlineAmong : List Definition → List Definition
  | [] => []
  | d :: ds => outline d ++ outlineAmong ds

end

/-- The first definition in the outline with a reference is found, and no instance ever is. -/
structure Searchable (d : Definition) : Prop where
  found_iff : ∀ wanted, (d.find? wanted).isSome ↔ ∃ e ∈ d.outline, e.reference = wanted
  found : ∀ {wanted e}, d.find? wanted = some e →
    e ∈ d.outline ∧ e.reference = wanted ∧ e.type ≠ .inst
  first : ∀ {front e back}, d.outline = front ++ e :: back →
    (∀ x ∈ front, x.reference ≠ e.reference) → d.find? e.reference = some e

variable (wanted : String)

theorem find?_outline_cons (d : Definition) (ds : List Definition) :
    ((d :: ds).find? fun e => e.reference = wanted) =
      if d.header.reference = wanted then some d else ds.find? fun e => e.reference = wanted := by
  by_cases h : d.header.reference = wanted <;> simp [reference, h]

mutual

theorem find?_eq : (d : Definition) →
    d.find? wanted = d.outline.find? fun e => e.reference = wanted
  | root h cs => by rw [find?, outline, find?_outline_cons, findAmong_eq cs]; rfl
  | group h cs => by rw [find?, outline, find?_outline_cons, findAmong_eq cs]; rfl
  | range h template instances => by
    rw [find?, outline, find?_outline_cons, find?_eq template]
    rfl
  | inst h cs => by rw [find?, outline, find?_outline_cons, findAmong_eq cs]; rfl
  | value h default => by rw [find?, outline, find?_outline_cons]; rfl
  | select h mode default items itemset => by rw [find?, outline, find?_outline_cons]; rfl

theorem findAmong_eq : (ds : List Definition) →
    findAmong wanted ds = (outlineAmong ds).find? fun e => e.reference = wanted
  | [] => rfl
  | d :: ds => by rw [findAmong, outlineAmong, List.find?_append, find?_eq d, findAmong_eq ds]

end

variable {wanted}

theorem find?_isSome_iff (d : Definition) :
    (d.find? wanted).isSome ↔ ∃ e ∈ d.outline, e.reference = wanted := by
  simp [find?_eq]

theorem mem_outline_of_find? {d e : Definition} (h : d.find? wanted = some e) :
    e ∈ d.outline ∧ e.reference = wanted := by
  rw [find?_eq] at h
  exact ⟨List.mem_of_find?_eq_some h, by simpa using List.find?_some h⟩

/-- The first of all definitions in the outline with the same reference is found. -/
theorem find?_of_first {d e : Definition} {front back : List Definition}
    (h : d.outline = front ++ e :: back) (hfirst : ∀ x ∈ front, x.reference ≠ e.reference) :
    d.find? e.reference = some e := by
  have hnone : (front.find? fun x => x.reference = e.reference) = none := by
    simpa using hfirst
  rw [find?_eq, h, List.find?_append, hnone]
  simp

theorem AllShaped.not_inst {type : NodeType} {ds : List Definition} (h : AllShaped type ds)
    (htype : type ≠ .range) : ∀ d ∈ ds, d.type ≠ .inst := by
  intro d hd hinst
  have hholds := h.holds d hd
  cases type <;> simp_all [NodeType.holds]

/-- What is found is the definition itself, unless it is found in the rest. -/
theorem eq_of_find?_cons {d e : Definition} {rest : Option Definition}
    (he : (if d.header.reference = wanted then some d else rest) = some e)
    (hrest : d.reference ≠ wanted → rest ≠ some e) : e = d ∧ d.reference = wanted := by
  split at he
  next h => exact ⟨(Option.some.inj he).symm, h⟩
  next h => exact absurd he (hrest h)

mutual

/-- An instance is found only where the search starts with it: the template of a repeat has the
reference of the repeat. -/
theorem eq_of_find?_inst {e : Definition} (hinst : e.type = .inst) :
    (d : Definition) → d.Shaped → (∀ x ∈ d.parts, x.Referenced) → d.find? wanted = some e →
    e = d ∧ d.reference = wanted
  | root h cs, hshaped, hreferenced, he => by
    refine eq_of_find?_cons he fun _ => findAmong_ne_inst hinst cs hshaped nofun ?_
    exact fun x hx => hreferenced x (List.mem_cons_of_mem _ hx)
  | group h cs, hshaped, hreferenced, he => by
    refine eq_of_find?_cons he fun _ => findAmong_ne_inst hinst cs hshaped nofun ?_
    exact fun x hx => hreferenced x (List.mem_cons_of_mem _ hx)
  | range h template instances, hshaped, hreferenced, he => by
    refine eq_of_find?_cons he fun hne he => hne ?_
    have hparts : ∀ x ∈ template.parts, x.Referenced := fun x hx =>
      hreferenced x (List.mem_cons_of_mem _ (List.mem_append_left _ hx))
    obtain ⟨-, htemplate⟩ := eq_of_find?_inst hinst template hshaped.2.1 hparts he
    have hrepeated := (hreferenced _ (self_mem_parts _)).repeated template List.mem_cons_self
    exact hrepeated.symm.trans htemplate
  | inst h cs, hshaped, hreferenced, he => by
    refine eq_of_find?_cons he fun _ => findAmong_ne_inst hinst cs hshaped nofun ?_
    exact fun x hx => hreferenced x (List.mem_cons_of_mem _ hx)
  | value h default, _, _, he => eq_of_find?_cons he fun _ => nofun
  | select h mode default items itemset, _, _, he => eq_of_find?_cons he fun _ => nofun

theorem findAmong_ne_inst {e : Definition} (hinst : e.type = .inst) :
    (ds : List Definition) → {type : NodeType} → AllShaped type ds → type ≠ .range →
    (∀ x ∈ partsAmong ds, x.Referenced) → findAmong wanted ds ≠ some e
  | [], _, _, _, _ => nofun
  | d :: ds, type, hshaped, htype, hreferenced => by
    intro he
    rw [findAmong, Option.or_eq_some_iff] at he
    rcases he with he | ⟨-, he⟩
    · have heq := (eq_of_find?_inst hinst d hshaped.2.1 
        (fun x hx => hreferenced x (List.mem_append_left _ hx)) he).1
      exact hshaped.not_inst htype d List.mem_cons_self (heq ▸ hinst)
    · exact findAmong_ne_inst hinst ds hshaped.2.2 htype
        (fun x hx => hreferenced x (List.mem_append_right _ hx)) he

end

theorem searchable (d : Definition) (hshaped : d.Shaped) (hd : d.type ≠ .inst)
    (hreferenced : ∀ x ∈ d.parts, x.Referenced) : d.Searchable where
  found_iff _ := d.find?_isSome_iff
  found he := by
    obtain ⟨hmem, hreference⟩ := mem_outline_of_find? he
    refine ⟨hmem, hreference, fun hinst => ?_⟩
    obtain ⟨rfl, -⟩ := eq_of_find?_inst hinst d hshaped hreferenced he
    exact hd hinst
  first := find?_of_first

end Definition

namespace Description

open Definition

/-- Descriptions and parts stand for each other, and a repeat that declares no template has one
without default content. -/
structure Represented (desc : Description) (d : Definition) : Prop where
  parts : ∀ inner, desc.Below inner → ∃ e ∈ d.parts, inner.StandsFor e
  descriptions : ∀ e ∈ d.parts, e.type = .range → ∃ inner, desc.Below inner ∧ inner.StandsFor e
  templates : ∀ inner e, desc.Below inner → inner.resolvedKind = .range →
    inner.explicitTemplates = [] → inner.StandsFor e → e.TemplateEmptied

theorem represented_toDefinition {desc : Description} {d : Definition}
    (h : desc.toDefinition = .ok d) : desc.Represented d where
  parts inner hinner := by
    obtain ⟨e, he, parent, hmade⟩ := exists_of_below h hinner
    exact ⟨e, he, parent, e, hmade, .inl rfl⟩
  descriptions e he hrange := by
    rcases (spreads_standsFor desc).parts_toDefinition h e he with rfl | hmade
    · exact nomatch (shaped_toDefinition h).2.symm.trans hrange
    · exact hmade (by rw [hrange]; nofun)
  templates _ _ _ hkind hnone hmade := templateEmptied_of_standsFor hmade hkind hnone

/-- In the definition of a form every part is referenced by what holds it, selections start with
what they may select, and templates that are not declared have no default content. -/
theorem toDefinition_referenced_searchable {desc : Description} {d : Definition}
    (h : desc.toDefinition = .ok d) :
    d.reference = "/" ++ d.name ∧ (∀ e ∈ d.parts, e.Referenced) ∧
      (∀ e ∈ d.parts, e.Unrepeated ∧ e.Sparing) ∧ desc.Represented d ∧ d.Searchable := by
  obtain ⟨hshaped, hroot⟩ := shaped_toDefinition h
  have hreferenced := referenced_toDefinition h
  refine ⟨?_, hreferenced, ?_, represented_toDefinition h,
    d.searchable hshaped (by rw [hroot]; nofun) hreferenced⟩
  · obtain ⟨-, -, cs, rfl, -⟩ := root_of_toDefinition h
    exact congrArg (· ++ desc.name) String.empty_append
  · intro e he
    exact ⟨confers_unrepeated.parts_toDefinition h e he, confers_sparing.parts_toDefinition h e he⟩

end Description

/-! ## A template without default content -/

def Description.rosterRange : Description where
  name := "r"
  kind := some .range
  instances := [{ children := [
    { name := "s", kind := some .selectOne, default := some "b c" },
    { name := "q", kind := some .range, instances := [{ children := [
      { name := "x", default := some "d" }] }] }] }]

def Description.roster : Description where
  name := "f"
  children := [.rosterRange]

namespace Definition

/-- The nested repeat, with what its only leaf has in the template and in the instance. -/
def rosterNested (template default : String) : Definition :=
  .range ⟨"/f/r/q", "q", {}, none, none⟩
    (.inst ⟨"/f/r/q", "q", {}, none, none⟩ [.value ⟨"/f/r/q/x", "x", {}, none, none⟩ template])
    [.inst ⟨"/f/r/q", "q", {}, none, none⟩ [.value ⟨"/f/r/q/x", "x", {}, none, none⟩ default]]

def rosterRange : Definition :=
  .range ⟨"/f/r", "r", {}, none, none⟩
    (.inst ⟨"/f/r", "r", {}, none, none⟩
      [.select ⟨"/f/r/s", "s", {}, none, none⟩ .single [] [] none, rosterNested "" ""])
    [.inst ⟨"/f/r", "r", {}, none, none⟩
      [.select ⟨"/f/r/s", "s", {}, none, none⟩ .single ["b"] [] none, rosterNested "" "d"]]

def roster : Definition := .root ⟨"/f", "f", {}, none, none⟩ [rosterRange]

end Definition

namespace Description

set_option maxRecDepth 20000 in
theorem toDefinition_roster : roster.toDefinition = .ok .roster := by rfl

set_option maxRecDepth 20000 in
theorem standsFor_rosterRange : rosterRange.StandsFor .rosterRange :=
  ⟨"/f", .rosterRange, rfl, .inl rfl⟩

theorem toDefinition_referenced_searchable_roster :
    roster.toDefinition = .ok .roster ∧ (∀ e ∈ Definition.roster.parts, e.Referenced) ∧
      Definition.rosterRange.TemplateEmptied ∧
      Definition.roster.find? "/f/r" = some .rosterRange := by
  obtain ⟨-, hreferenced, -, hrepresented, hsearchable⟩ :=
    toDefinition_referenced_searchable toDefinition_roster
  have hbelow : roster.Below rosterRange := .single (.inl ⟨.inl rfl, List.mem_cons_self⟩)
  refine ⟨toDefinition_roster, hreferenced, ?_, ?_⟩
  · exact hrepresented.templates _ _ hbelow rfl rfl standsFor_rosterRange
  · have hfirst : ∀ x ∈ [Definition.roster], x.reference ≠ "/f/r" := by
      simp [Definition.roster, Definition.reference, Definition.header]
    exact hsearchable.first (e := .rosterRange) rfl hfirst

end Description

/-! ## A value and a repeat of the same name -/

def Description.twins : Description where
  name := "f"
  children := [{ name := "r" }, { name := "r", kind := some .range }]

def Definition.twins : Definition :=
  .root ⟨"/f", "f", {}, none, none⟩ [
    .value ⟨"/f/r", "r", {}, none, none⟩ "",
    .range ⟨"/f/r", "r", {}, none, none⟩ (.inst ⟨"/f/r", "r", {}, none, none⟩ []) []]

set_option maxRecDepth 20000 in
theorem Description.toDefinition_twins : Description.twins.toDefinition = .ok .twins := by rfl

/-- The reference of a repeat may lead to a value in front of it. -/
theorem Description.range_hidden_twins :
    ¬ ∀ (desc : Description) (d : Definition), desc.toDefinition = .ok d →
      ∀ e ∈ d.outline, e.type = .range → d.find? e.reference = some e := by
  intro h
  have hfound := h _ _ toDefinition_twins
    (.range ⟨"/f/r", "r", {}, none, none⟩ (.inst ⟨"/f/r", "r", {}, none, none⟩ []) [])
    (by simp [Definition.twins, Definition.outline, Definition.outlineAmong]) rfl
  have htype : (Definition.twins.find? "/f/r").map Definition.type = some .value := by decide
  cases htype.symm.trans (congrArg (Option.map Definition.type) hfound)

end ReactiveForm
