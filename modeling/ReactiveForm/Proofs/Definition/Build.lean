import ReactiveForm.Proofs.Definition.Made

/-!
# Properties that definitions are made with

What every part has as soon as it is made from a description, and keeps when its default content is
taken away, all parts of the definition of a form have.
-/

set_option autoImplicit false

namespace ReactiveForm

namespace Description

open Definition

/-- Every definition has the property when it is made from a description, and keeps it when its
default content is taken away. -/
structure Confers (P : Definition → Prop) : Prop where
  root : ∀ {header}, Headed header → ∀ cs, P (.root header cs)
  group : ∀ {header}, Headed header → ∀ cs, P (.group header cs)
  inst : ∀ {header}, Headed header → ∀ cs, P (.inst header cs)
  value : ∀ {header}, Headed header → ∀ default, P (.value header default)
  select : ∀ {header}, Headed header → ∀ mode default items itemset,
    P (.select header mode (defaultSelection mode default) items itemset)
  /-- What a repeat holds has the header of the repeat. -/
  range : ∀ {header template instances}, Headed header → template.header = header →
    (∀ e ∈ instances, e.header = header) →
    P (.range { header with bind := {} } template instances)
  cleared : ∀ d : Definition, P d → P d.cleared

variable {P : Definition → Prop} {desc : Description} {d : Definition}

theorem Confers.spreads (hP : Confers P) (desc : Description) : desc.Spreads P where
  made _ h := by
    obtain ⟨hname, hmakes⟩ := makes_of_build h
    have hheaded := headed_headerAt hname
    cases hmakes with
    | group => exact hP.group (hheaded _) _
    | value => exact hP.value (hheaded _) _
    | select mode => exact hP.select (hheaded _) mode _ _ _
    | range hkind hrepetition =>
      have hall := hrepetition.all (P := fun e => e.header = _) hkind
        (fun _ _ _ he => he.header) (fun e he => (header_cleared e).trans he)
      obtain ⟨htemplate, hinstances⟩ := List.forall_mem_cons.mp hall
      exact hP.range (hheaded _) htemplate hinstances
  inst hheaded _ := hP.inst hheaded _
  cleared := hP.cleared

theorem Confers.parts_toDefinition (hP : Confers P) (h : desc.toDefinition = .ok d) :
    ∀ e ∈ d.parts, P e := by
  obtain ⟨hname, -, cs, rfl, -⟩ := root_of_toDefinition h
  intro e he
  rcases (hP.spreads desc).parts_toDefinition h e he with rfl | he
  · exact hP.root (headed_headerAt hname "") cs
  · exact he

/-! ## Shapes -/

/-- Whether nodes of the type may hold all that descriptions stand for. -/
def Open (type : NodeType) : Prop :=
  ∀ c : NodeType, c ≠ .root → c ≠ .inst → type.holds c

theorem open_root : Open .root := by
  intro c hroot hinst
  simp [NodeType.holds, hroot, hinst]

theorem open_group : Open .group := by
  intro c hroot hinst
  simp [NodeType.holds, hroot, hinst]

theorem open_inst : Open .inst := by
  intro c hroot hinst
  simp [NodeType.holds, hroot, hinst]

/-- What a description stands for below another one. -/
structure Built (d : Definition) : Prop where
  shaped : d.Shaped
  not_root : d.type ≠ .root
  not_inst : d.type ≠ .inst

theorem allShaped_of_built {ds : List Definition} {type : NodeType} (hopen : Open type)
    (h : ∀ d ∈ ds, Built d) : AllShaped type ds := by
  induction ds with
  | nil => trivial
  | cons d ds ih =>
    have hd := h d List.mem_cons_self
    exact ⟨hopen d.type hd.not_root hd.not_inst, hd.shaped,
      ih fun e he => h e (List.mem_cons_of_mem d he)⟩

theorem allShaped_range {ds : List Definition} (h : ∀ d ∈ ds, d.type = .inst ∧ d.Shaped) :
    AllShaped .range ds := by
  induction ds with
  | nil => trivial
  | cons d ds ih =>
    obtain ⟨htype, hd⟩ := h d List.mem_cons_self
    exact ⟨by rw [htype]; rfl, hd, ih fun e he => h e (List.mem_cons_of_mem d he)⟩

theorem shaped_of_instance {header : Header} (hall : ∀ inner ∈ desc.children, ∀ e,
    build header.reference inner = .ok e → Built e) (h : Instance header desc d) :
    d.type = .inst ∧ d.Shaped := by
  obtain ⟨cs, hcs, rfl⟩ := h
  refine ⟨rfl, allShaped_of_built open_inst fun c hc => ?_⟩
  obtain ⟨inner, hinner, hc⟩ := exists_of_mem_buildAll hcs c hc
  exact hall inner hinner c hc

theorem built_of_build {parent : String} (h : build parent desc = .ok d) : Built d := by
  induction desc using wellFounded_holds.induction generalizing parent d with
  | _ desc ih =>
    cases (makes_of_build h).2 with
    | group hkind hcs =>
      refine ⟨allShaped_of_built open_group fun c hc => ?_, nofun, nofun⟩
      obtain ⟨inner, hinner, hc⟩ := exists_of_mem_buildAll hcs c hc
      exact ih inner (.inl ⟨.inl hkind, hinner⟩) hc
    | value => exact ⟨trivial, nofun, nofun⟩
    | select mode => exact ⟨trivial, nofun, nofun⟩
    | range hkind hrepetition =>
      have hall := hrepetition.all (P := fun e => e.type = .inst ∧ e.Shaped) hkind
        (fun source e hsource => shaped_of_instance fun inner hinner _ =>
          ih inner (hsource inner hinner))
        (fun e he => ⟨(type_cleared e).trans he.1, shaped_cleared e he.2⟩)
      obtain ⟨htemplate, hinstances⟩ := List.forall_mem_cons.mp hall
      exact ⟨⟨htemplate.1, htemplate.2, allShaped_range hinstances⟩, nofun, nofun⟩

/-- The definition of a whole form is a root that is shaped throughout. -/
theorem shaped_toDefinition {desc : Description} {d : Definition}
    (h : desc.toDefinition = .ok d) : d.Shaped ∧ d.type = .root := by
  obtain ⟨-, -, cs, rfl, hcs⟩ := root_of_toDefinition h
  refine ⟨allShaped_of_built open_root fun c hc => ?_, rfl⟩
  obtain ⟨inner, -, hc⟩ := exists_of_mem_buildAll hcs c hc
  exact built_of_build hc

end Description

end ReactiveForm
