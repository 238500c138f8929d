import Mathlib.Data.List.Forall2
import Mathlib.Logic.Relation
import ReactiveForm.Proofs.Definition.Parts

/-!
# What descriptions are made into

What a description is made into is decided by its kind, by what its children are made into and, for
a repeat, by what the bodies of its instances are made into. So what holds of everything that is made
of a description holds of all parts of the definition of a form, and every description inside that
of the form is made into a part.
-/

set_option autoImplicit false

namespace ReactiveForm

theorem exists_of_forall₂ {α β : Type} {R : α → β → Prop} {xs : List α} {ys : List β}
    (h : List.Forall₂ R xs ys) : ∀ y ∈ ys, ∃ x ∈ xs, R x y := by
  induction h with
  | nil => exact fun _ hy => absurd hy List.not_mem_nil
  | @cons x y xs ys hxy _ ih =>
    refine List.forall_mem_cons.mpr ⟨⟨x, List.mem_cons_self, hxy⟩, fun z hz => ?_⟩
    obtain ⟨w, hw, hwz⟩ := ih z hz
    exact ⟨w, List.mem_cons_of_mem x hw, hwz⟩

namespace Description

open Definition

variable {parent : String} {desc : Description} {d : Definition}

/-- The header of what the description is made into. -/
def headerAt (desc : Description) (parent : String) : Header :=
  headerBelow parent desc.name desc.bind desc.label desc.hint

/-- The header gives a proper name, which ends its reference. -/
structure Headed (header : Header) : Prop where
  name : isName header.name = true
  reference : ∃ parent, header.reference = parent ++ "/" ++ header.name

theorem headed_headerAt (h : isName desc.name = true) (parent : String) :
    Headed (desc.headerAt parent) :=
  ⟨h, parent, rfl⟩

/-- What a repeat declares to be its template: instances marked so, and its own children. -/
def explicitTemplates (desc : Description) : List Description :=
  desc.instances.filter (·.template) ++ if desc.children.isEmpty then [] else [desc]

/-- The definition is an instance with what the children of the description are made into. -/
def Instance (header : Header) (desc : Description) (d : Definition) : Prop :=
  ∃ cs, buildAll header.reference desc.children = .ok cs ∧ d = .inst header cs

theorem Instance.header {header : Header} (h : Instance header desc d) : d.header = header := by
  obtain ⟨_, _, rfl⟩ := h
  rfl

/-- A template and default instances of the repeat that the description stands for. -/
structure Repetition (desc : Description) (header : Header) (template : Definition)
    (instances : List Definition) : Prop where
  made : List.Forall₂ (Instance header) (desc.instances.filter (!·.template)) instances
  template : (∃ source, desc.explicitTemplates = [source] ∧ Instance header source template) ∨
    desc.explicitTemplates = [] ∧ template = (instances.head?.getD (.inst header [])).cleared

/-- What the description is made into, by its kind. -/
inductive Makes (desc : Description) (parent : String) : Definition → Prop where
  | group {cs : List Definition} (kind : desc.resolvedKind = .group)
      (children : buildAll (desc.headerAt parent).reference desc.children = .ok cs) :
      Makes desc parent (.group (desc.headerAt parent) cs)
  | value (kind : desc.resolvedKind = .value) :
      Makes desc parent (.value (desc.headerAt parent) (desc.default.getD ""))
  | select (mode : SelectMode) (kind : desc.resolvedKind = match mode with
        | .single => .selectOne
        | .multiple => .selectMany) :
      Makes desc parent (.select (desc.headerAt parent) mode (defaultSelection mode desc.default)
        desc.items desc.itemset)
  | range {template : Definition} {instances : List Definition} (kind : desc.resolvedKind = .range)
      (repetition : desc.Repetition (desc.headerAt parent) template instances) :
      Makes desc parent (.range { desc.headerAt parent with bind := {} } template instances)

theorem buildBodies_eq_map (reference : String) (descs : List Description) :
    buildBodies reference descs =
      descs.map fun desc => (desc.template, buildAll reference desc.children) := by
  induction descs with
  | nil => rw [buildBodies, List.map_nil]
  | cons desc descs ih =>
    cases desc
    rw [buildBodies, ih, List.map_cons]

theorem buildAll_nil (parent : String) : buildAll parent [] = .ok [] := by
  rw [buildAll]
  rfl

theorem forall₂_of_buildAll {descs : List Description} {ds : List Definition}
    (h : buildAll parent descs = .ok ds) :
    List.Forall₂ (fun desc d => build parent desc = .ok d) descs ds := by
  induction descs generalizing ds with
  | nil =>
    rw [buildAll] at h
    obtain rfl := Except.ok.inj h
    exact .nil
  | cons desc descs ih =>
    rw [buildAll] at h
    obtain ⟨first, hfirst, h⟩ := ok_of_bind h
    obtain ⟨rest, hrest, h⟩ := ok_of_bind h
    obtain rfl := Except.ok.inj h
    exact .cons hfirst (ih hrest)

theorem exists_of_mem_buildAll {descs : List Description} {ds : List Definition}
    (h : buildAll parent descs = .ok ds) : ∀ d ∈ ds, ∃ desc ∈ descs, build parent desc = .ok d :=
  exists_of_forall₂ (forall₂_of_buildAll h)

theorem forall₂_of_mapM {α β ε : Type} {f : α → Except ε β} {xs : List α} {ys : List β}
    (h : xs.mapM f = .ok ys) : List.Forall₂ (fun x y => f x = .ok y) xs ys := by
  induction xs generalizing ys with
  | nil =>
    obtain rfl := Except.ok.inj h
    exact .nil
  | cons x xs ih =>
    rw [List.mapM_cons] at h
    obtain ⟨y, hy, h⟩ := ok_of_bind h
    obtain ⟨zs, hzs, h⟩ := ok_of_bind h
    obtain rfl := Except.ok.inj h
    exact .cons hy (ih hzs)

section

variable {header : Header}

/-- A repeat with a template, and with instances made of the bodies that are not marked. -/
theorem forall₂_instance {descs : List Description} {template : Definition}
    (h : (do
      let instances ← ((buildBodies header.reference descs).filter (!·.1)).mapM fun (_, body) => do
        pure (Definition.inst header (← body))
      pure (.range { header with bind := {} } template instances) :
        Except DefinitionError Definition) = .ok d) :
    ∃ instances, List.Forall₂ (Instance header) (descs.filter (!·.template)) instances ∧
      d = .range { header with bind := {} } template instances := by
  obtain ⟨instances, hinstances, h⟩ := ok_of_bind h
  rw [buildBodies_eq_map, List.filter_map] at hinstances
  refine ⟨instances, ?_, (Except.ok.inj h).symm⟩
  refine (List.forall₂_map_left_iff.mp (forall₂_of_mapM hinstances)).imp fun i e he => ?_
  obtain ⟨cs, hcs, he⟩ := ok_of_bind he
  exact ⟨cs, hcs, (Except.ok.inj he).symm⟩

theorem filter_marked (reference : String) (desc : Description) :
    (buildBodies reference desc.instances).filter (·.1) =
      (desc.instances.filter (·.template)).map
        fun i => (i.template, buildAll reference i.children) := by
  rw [buildBodies_eq_map, List.filter_map]
  rfl

theorem length_explicitTemplates (reference : String) (desc : Description) :
    desc.explicitTemplates.length =
      ((buildBodies reference desc.instances).filter (·.1)).length +
        if !desc.children.isEmpty then 1 else 0 := by
  rw [filter_marked, explicitTemplates, List.length_map, List.length_append]
  cases desc.children <;> rfl

theorem explicitTemplates_eq_nil
    (hnone : (buildBodies header.reference desc.instances).filter (·.1) = [])
    (hempty : (!desc.children.isEmpty) = false) : desc.explicitTemplates = [] := by
  refine List.eq_nil_of_length_eq_zero ?_
  rw [length_explicitTemplates header.reference, hnone, hempty]
  rfl

/-- The first body is the first one that is not marked if none is. -/
theorem head?_instances {body : BuiltBody} {rest : List BuiltBody} {cs instances : List Definition}
    (hnone : desc.instances.filter (·.template) = [])
    (hinstances : List.Forall₂ (Instance header) (desc.instances.filter (!·.template)) instances)
    (hfirst : buildBodies header.reference desc.instances = body :: rest) (hcs : body.2 = .ok cs) :
    instances.head? = some (.inst header cs) := by
  rw [buildBodies_eq_map] at hfirst
  obtain ⟨i, rest, hi, rfl, -⟩ := List.map_eq_cons_iff.mp hfirst
  have hplain : (!i.template) = true := by
    rw [hi] at hnone
    simpa using List.filter_eq_nil_iff.mp hnone i List.mem_cons_self
  rw [hi, List.filter_cons, if_pos hplain] at hinstances
  cases hinstances with
  | cons hinstance _ =>
    obtain ⟨cs', hcs', rfl⟩ := hinstance
    rw [Except.ok.inj (hcs.symm.trans hcs')]
    rfl

theorem repetition_of_eq_ok (desc : Description)
    (h : repetition header (buildAll header.reference desc.children) (!desc.children.isEmpty)
      (buildBodies header.reference desc.instances) = .ok d) :
    ∃ template instances, desc.Repetition header template instances ∧
      d = .range { header with bind := {} } template instances := by
  unfold repetition at h
  dsimp only at h
  rw [← length_explicitTemplates] at h
  split at h
  · obtain ⟨_, hthrow, _⟩ := ok_of_bind h
    exact nomatch hthrow
  next hone =>
    -- the four sources of a template: a marked instance, the children, the first instance, nothing
    split at h
    next hsome =>
      obtain ⟨cs, hcs, h⟩ := ok_of_bind h
      obtain ⟨instances, hinstances, rfl⟩ := forall₂_instance h
      refine ⟨_, instances, ⟨hinstances, ?_⟩, rfl⟩
      rw [filter_marked] at hsome
      obtain ⟨i, rest, hmarked, hi, -⟩ := List.map_eq_cons_iff.mp hsome
      have hrest : rest ++ (if desc.children.isEmpty then [] else [desc]) = [] := by
        rw [explicitTemplates, hmarked, List.cons_append, List.length_cons] at hone
        exact List.eq_nil_of_length_eq_zero (by omega)
      refine .inl ⟨i, ?_, cs, (Prod.mk.inj hi).2.trans hcs, rfl⟩
      rw [explicitTemplates, hmarked, List.cons_append, hrest]
    next hnone hsome =>
      obtain ⟨cs, hcs, h⟩ := ok_of_bind h
      obtain ⟨instances, hinstances, rfl⟩ := forall₂_instance h
      refine ⟨_, instances, ⟨hinstances, ?_⟩, rfl⟩
      rw [filter_marked] at hnone
      have hchildren : ¬ desc.children.isEmpty = true := by simpa using hsome
      refine .inl ⟨desc, ?_, cs, hcs, rfl⟩
      rw [explicitTemplates, List.map_eq_nil_iff.mp hnone, if_neg hchildren, List.nil_append]
    next hnone hempty hfirst =>
      obtain ⟨cs, hcs, h⟩ := ok_of_bind h
      obtain ⟨instances, hinstances, rfl⟩ := forall₂_instance h
      refine ⟨_, instances, ⟨hinstances, ?_⟩, rfl⟩
      refine .inr ⟨explicitTemplates_eq_nil hnone hempty, ?_⟩
      rw [filter_marked] at hnone
      rw [head?_instances (List.map_eq_nil_iff.mp hnone) hinstances hfirst hcs]
      rfl
    next hnone hempty hnil =>
      obtain ⟨instances, hinstances, rfl⟩ := forall₂_instance h
      refine ⟨_, instances, ⟨hinstances, ?_⟩, rfl⟩
      refine .inr ⟨explicitTemplates_eq_nil hnone hempty, ?_⟩
      rw [buildBodies_eq_map] at hnil
      rw [List.map_eq_nil_iff.mp hnil] at hinstances
      cases hinstances
      rfl

end

theorem eq_select_of_eq_ok {header : Header} {mode : SelectMode} {default : Option String}
    {items : List Item} {itemset : Option Itemset}
    (h : selection header mode default items itemset = .ok d) :
    d = .select header mode (defaultSelection mode default) items itemset := by
  unfold selection at h
  split at h
  · exact nomatch h
  · exact (Except.ok.inj h).symm

theorem makes_of_build (h : build parent desc = .ok d) :
    isName desc.name = true ∧ Makes desc parent d := by
  obtain ⟨name, kind, label, hint, bind, default, children, instances, template, items, itemset⟩ :=
    desc
  unfold build at h
  dsimp only at h
  -- the checks are made in this order: the name first, then what the kind asks for
  split at h
  · obtain ⟨_, hthrow, _⟩ := ok_of_bind h
    exact nomatch hthrow
  next hname =>
    refine ⟨by simpa using hname, ?_⟩
    split at h
    next hkind =>
      obtain ⟨cs, hcs, h⟩ := ok_of_bind h
      obtain rfl := Except.ok.inj h
      exact .group hkind hcs
    next hkind =>
      obtain rfl := Except.ok.inj h
      exact .value hkind
    next hkind =>
      obtain rfl := eq_select_of_eq_ok h
      exact .select .multiple hkind
    next hkind =>
      obtain rfl := eq_select_of_eq_ok h
      exact .select .single hkind
    next hkind =>
      obtain ⟨_, _, hrepetition, rfl⟩ := repetition_of_eq_ok ⟨name, kind, label, hint, bind, default,
        children, instances, template, items, itemset⟩ h
      exact .range hkind hrepetition

/-! ## Descriptions inside descriptions -/

/-- The second description is a child of the first, or stands in the body of an instance of it. -/
def Holds (desc inner : Description) : Prop :=
  (desc.resolvedKind = .group ∨ desc.resolvedKind = .range) ∧ inner ∈ desc.children ∨
    desc.resolvedKind = .range ∧ ∃ i ∈ desc.instances, inner ∈ i.children

/-- The first description holds the second at some depth. -/
def Below (desc inner : Description) : Prop := Relation.TransGen Holds desc inner

theorem Holds.kind {inner : Description} (h : Holds desc inner) :
    desc.resolvedKind = .group ∨ desc.resolvedKind = .range := by
  rcases h with ⟨hkind, -⟩ | ⟨hkind, -⟩
  · exact hkind
  · exact .inr hkind

theorem holds_of_explicitTemplates (hkind : desc.resolvedKind = .range)
    {source inner : Description} (hsource : source ∈ desc.explicitTemplates)
    (hinner : inner ∈ source.children) : Holds desc inner := by
  rcases List.mem_append.mp hsource with hmarked | hown
  · exact .inr ⟨hkind, source, (List.mem_filter.mp hmarked).1, hinner⟩
  · split at hown
    · exact absurd hown List.not_mem_nil
    · obtain rfl := List.mem_singleton.mp hown
      exact .inl ⟨.inr hkind, hinner⟩

/-- What instances of a repeat have and keep when their default content is taken away, the template
has too. -/
theorem Repetition.all {header : Header} {template : Definition} {instances : List Definition}
    {P : Definition → Prop} (h : desc.Repetition header template instances)
    (hkind : desc.resolvedKind = .range)
    (hmade : ∀ source e, (∀ inner ∈ source.children, Holds desc inner) →
      Instance header source e → P e)
    (hcleared : ∀ e, P e → P e.cleared) : ∀ e ∈ template :: instances, P e := by
  have hinstances : ∀ e ∈ instances, P e := by
    intro e he
    obtain ⟨i, hi, he⟩ := exists_of_forall₂ h.made e he
    exact hmade i e (fun inner hinner => .inr ⟨hkind, i, (List.mem_filter.mp hi).1, hinner⟩) he
  refine List.forall_mem_cons.mpr ⟨?_, hinstances⟩
  rcases h.template with ⟨source, hsource, htemplate⟩ | ⟨-, rfl⟩
  · have hmem : source ∈ desc.explicitTemplates := hsource ▸ List.mem_cons_self
    exact hmade source template (fun inner => holds_of_explicitTemplates hkind hmem) htemplate
  · apply hcleared
    cases instances with
    | nil => exact hmade {} _ (fun _ hinner => nomatch hinner) ⟨[], buildAll_nil _, rfl⟩
    | cons first instances => exact hinstances first List.mem_cons_self

theorem sizeOf_parts_lt (desc : Description) :
    sizeOf desc.children < sizeOf desc ∧ sizeOf desc.instances < sizeOf desc := by
  obtain ⟨name, kind, label, hint, bind, default, children, instances, template, items, itemset⟩ :=
    desc
  simp only [mk.sizeOf_spec]
  omega

theorem sizeOf_lt_of_mem_children {inner : Description} (h : inner ∈ desc.children) :
    sizeOf inner < sizeOf desc :=
  Nat.lt_trans (List.sizeOf_lt_of_mem h) desc.sizeOf_parts_lt.1

theorem sizeOf_lt_of_mem_instances {inner : Description} (h : inner ∈ desc.instances) :
    sizeOf inner < sizeOf desc :=
  Nat.lt_trans (List.sizeOf_lt_of_mem h) desc.sizeOf_parts_lt.2

theorem wellFounded_holds : WellFounded fun inner desc => Holds desc inner := by
  refine Subrelation.wf ?_ (measure sizeOf).wf
  rintro inner desc (⟨-, h⟩ | ⟨-, i, hi, h⟩)
  · exact sizeOf_lt_of_mem_children h
  · exact Nat.lt_trans (sizeOf_lt_of_mem_children h) (sizeOf_lt_of_mem_instances hi)

/-- What is made of descriptions below the first one has the property, instances have it, and it
stays when default content is taken away. -/
structure Spreads (desc : Description) (P : Definition → Prop) : Prop where
  made : ∀ {inner : Description} {parent : String} {d : Definition}, desc.Below inner →
    build parent inner = .ok d → P d
  inst : ∀ {header : Header} {descs : List Description} {cs : List Definition}, Headed header →
    buildAll header.reference descs = .ok cs → P (.inst header cs)
  cleared : ∀ d : Definition, P d → P d.cleared

namespace Spreads

variable {top : Description} {P : Definition → Prop} (hP : top.Spreads P)

theorem allParts_of_buildAll {descs : List Description} {cs : List Definition}
    (hall : ∀ inner ∈ descs, ∀ d, build parent inner = .ok d → AllParts P [d])
    (h : buildAll parent descs = .ok cs) : AllParts P cs := by
  refine allParts_iff.mpr fun c hc => ?_
  obtain ⟨inner, hinner, hc⟩ := exists_of_mem_buildAll h c hc
  exact hall inner hinner c hc

include hP

theorem allParts_of_instance {header : Header} (hheaded : Headed header)
    (hall : ∀ inner ∈ desc.children, ∀ d, build header.reference inner = .ok d → AllParts P [d])
    (h : Instance header desc d) : AllParts P [d] := by
  obtain ⟨cs, hcs, rfl⟩ := h
  exact allParts_of_parts (hP.inst hheaded hcs) (allParts_of_buildAll hall hcs) fun _ he => he

/-- The induction is on the descriptions that hold each other. -/
theorem allParts_build (hbelow : top.Below desc) (h : build parent desc = .ok d) :
    AllParts P [d] := by
  induction desc using wellFounded_holds.induction generalizing parent d with
  | _ desc ih =>
    have hd : P d := hP.made hbelow h
    have hall : ∀ inner, Holds desc inner → ∀ e,
        build (desc.headerAt parent).reference inner = .ok e → AllParts P [e] :=
      fun inner hinner e he => ih inner hinner (.tail hbelow hinner) he
    obtain ⟨hname, hmakes⟩ := makes_of_build h
    cases hmakes with
    | group hkind hcs =>
      refine allParts_of_parts hd (allParts_of_buildAll (fun inner hinner => ?_) hcs) fun _ he => he
      exact hall inner (.inl ⟨.inl hkind, hinner⟩)
    | value hkind => exact allParts_of_parts hd allParts_nil fun _ he => he
    | select mode hkind => exact allParts_of_parts hd allParts_nil fun _ he => he
    | range hkind hrepetition =>
      have hrepeated := hrepetition.all hkind
        (fun source e hsource => hP.allParts_of_instance (headed_headerAt hname parent)
          fun inner hinner => hall inner (hsource inner hinner))
        (fun e => AllParts.cleared hP.cleared)
      exact allParts_of_parts hd (allParts_iff.mpr hrepeated) fun _ he => he

end Spreads

/-! ## What is held is made -/

theorem exists_of_buildAll {descs : List Description} {cs : List Definition} {inner : Description}
    (h : buildAll parent descs = .ok cs) (hinner : inner ∈ descs) :
    ∃ e ∈ partsAmong cs, build parent inner = .ok e := by
  obtain ⟨e, he, hmade⟩ := exists_of_forall₂ (forall₂_of_buildAll h).flip inner hinner
  exact ⟨e, mem_partsAmong.mpr ⟨e, he, self_mem_parts e⟩, hmade⟩

theorem exists_of_instance {header : Header} {inner : Description} (h : Instance header desc d)
    (hinner : inner ∈ desc.children) : ∃ e ∈ d.parts, build header.reference inner = .ok e := by
  obtain ⟨cs, hcs, rfl⟩ := h
  obtain ⟨e, he, hmade⟩ := exists_of_buildAll hcs hinner
  exact ⟨e, List.mem_cons_of_mem _ he, hmade⟩

/-- What holds the inner description is the source of the template or of a default instance. -/
theorem exists_of_repetition {header : Header} {template : Definition}
    {instances : List Definition} {inner : Description}
    (h : desc.Repetition header template instances) (hinner : Holds desc inner) :
    ∃ e ∈ partsAmong (template :: instances), build header.reference inner = .ok e := by
  have hexplicit (source : Description) (hsource : source ∈ desc.explicitTemplates)
      (hinner : inner ∈ source.children) :
      ∃ e ∈ partsAmong (template :: instances), build header.reference inner = .ok e := by
    rcases h.template with ⟨only, honly, htemplate⟩ | ⟨hnone, -⟩
    · obtain rfl := List.mem_singleton.mp (honly ▸ hsource)
      obtain ⟨e, he, hmade⟩ := exists_of_instance htemplate hinner
      exact ⟨e, List.mem_append_left _ he, hmade⟩
    · exact absurd (hnone ▸ hsource) List.not_mem_nil
  rcases hinner with ⟨-, hinner⟩ | ⟨-, i, hi, hinner⟩
  · refine hexplicit desc (List.mem_append_right _ ?_) hinner
    rw [if_neg (by simpa using List.ne_nil_of_mem hinner)]
    exact List.mem_singleton_self desc
  · by_cases hmarked : i.template = true
    · exact hexplicit i (List.mem_append_left _ (List.mem_filter.mpr ⟨hi, hmarked⟩)) hinner
    · have hplain : i ∈ desc.instances.filter (!·.template) :=
        List.mem_filter.mpr ⟨hi, by simpa using hmarked⟩
      obtain ⟨holder, hmem, hinstance⟩ := exists_of_forall₂ h.made.flip i hplain
      obtain ⟨e, he, hmade⟩ := exists_of_instance hinstance hinner
      exact ⟨e, List.mem_append_right _ (mem_partsAmong.mpr ⟨holder, hmem, he⟩), hmade⟩

theorem exists_of_holds {inner : Description} (h : build parent desc = .ok d)
    (hinner : Holds desc inner) : ∃ e ∈ d.parts, ∃ parent, build parent inner = .ok e := by
  cases (makes_of_build h).2 with
  | group hkind hcs =>
    rcases hinner with ⟨-, hinner⟩ | ⟨hrange, -⟩
    · obtain ⟨e, he, hmade⟩ := exists_of_buildAll hcs hinner
      exact ⟨e, List.mem_cons_of_mem _ he, _, hmade⟩
    · exact nomatch hkind.symm.trans hrange
  | value hkind =>
    have hholds := hinner.kind
    simp [hkind] at hholds
  | select mode hkind =>
    have hholds := hinner.kind
    cases mode <;> simp [hkind] at hholds
  | range hkind hrepetition =>
    obtain ⟨e, he, hmade⟩ := exists_of_repetition hrepetition hinner
    exact ⟨e, List.mem_cons_of_mem _ he, _, hmade⟩

/-! ## Whole forms -/

theorem root_of_toDefinition (h : desc.toDefinition = .ok d) :
    isName desc.name = true ∧ desc.resolvedKind = .group ∧ ∃ cs, d = .root (desc.headerAt "") cs ∧
      buildAll (desc.headerAt "").reference desc.children = .ok cs := by
  unfold toDefinition at h
  dsimp only at h
  split at h
  · obtain ⟨_, hthrow, _⟩ := ok_of_bind h
    exact nomatch hthrow
  next hkind =>
    split at h
    · obtain ⟨_, hthrow, _⟩ := ok_of_bind h
      exact nomatch hthrow
    next hname =>
      obtain ⟨cs, hcs, h⟩ := ok_of_bind h
      exact ⟨by simpa using hname, by simpa using hkind, cs, (Except.ok.inj h).symm, hcs⟩

/-- What holds of all that is made of descriptions holds of all but the root. -/
theorem Spreads.parts_toDefinition {P : Definition → Prop} (hP : desc.Spreads P)
    (h : desc.toDefinition = .ok d) : ∀ e ∈ d.parts, e = d ∨ P e := by
  obtain ⟨-, hkind, cs, rfl, hcs⟩ := root_of_toDefinition h
  have hall : AllParts P cs := allParts_of_buildAll
    (fun inner hinner _ => hP.allParts_build (.single (.inl ⟨.inl hkind, hinner⟩))) hcs
  intro e he
  rcases List.mem_cons.mp he with rfl | he
  · exact .inl rfl
  · exact .inr (hall e he)

/-- Every description below that of the form is made into a part. -/
theorem exists_of_below {inner : Description} (h : desc.toDefinition = .ok d)
    (hinner : Below desc inner) : ∃ e ∈ d.parts, ∃ parent, build parent inner = .ok e := by
  induction hinner with
  | single hinner =>
    obtain ⟨-, hkind, cs, rfl, hcs⟩ := root_of_toDefinition h
    rcases hinner with ⟨-, hinner⟩ | ⟨hrange, -⟩
    · obtain ⟨e, he, hmade⟩ := exists_of_buildAll hcs hinner
      exact ⟨e, List.mem_cons_of_mem _ he, _, hmade⟩
    · exact nomatch hkind.symm.trans hrange
  | tail _ hinner ih =>
    obtain ⟨c, hc, _, hmade⟩ := ih
    obtain ⟨e, he, hmade⟩ := exists_of_holds hmade hinner
    exact ⟨e, parts_subset d hc he, hmade⟩

end Description

end ReactiveForm
