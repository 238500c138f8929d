import ReactiveForm.Proofs.Definition.Build
import ReactiveForm.Proofs.Distinct

/-!
# Default content

What a selection selects by default it selects once, and one value at most in single mode. A repeat
that declares no template takes its first instance for one, without default content but otherwise as
it is.
-/

set_option autoImplicit false

namespace ReactiveForm

/-! ## Selections -/

/-- A selection selects no value twice by default. -/
def Definition.Unrepeated : Definition → Prop
  | .select _ _ default _ _ => default.Nodup
  | _ => True

/-- What a description selects by default, it selects once. -/
theorem Description.confers_unrepeated : Confers Definition.Unrepeated where
  root _ _ := trivial
  group _ _ := trivial
  inst _ _ := trivial
  value _ _ := trivial
  select _ mode default _ _ := by
    have hwords : (distinctWords (default.getD "")).Nodup := nodup_eraseDups _
    cases mode with
    | single => exact hwords.sublist (List.take_sublist 1 _)
    | multiple => exact hwords
  range _ _ _ := trivial
  cleared d h := by
    cases d with
    | select => exact List.nodup_nil
    | root | group | range | inst | value => trivial

/-- At most one value of a selection in single mode is selected by default. -/
def Definition.Sparing : Definition → Prop
  | .select _ .single default _ _ => default.length ≤ 1
  | _ => True

theorem Description.confers_sparing : Confers Definition.Sparing where
  root _ _ := trivial
  group _ _ := trivial
  inst _ _ := trivial
  value _ _ := trivial
  select _ mode default items itemset := by
    cases mode with
    | single => exact List.length_take_le 1 _
    | multiple => trivial
  range _ _ _ := trivial
  cleared d h := by
    cases d with
    | select header mode default items itemset =>
      cases mode with
      | single => exact Nat.zero_le 1
      | multiple => trivial
    | root | group | range | inst | value => trivial

/-! ## Content taken away -/

namespace Definition

/-- A leaf has no default content. -/
def Emptied : Definition → Prop
  | .value _ default => default = ""
  | .select _ _ default _ _ => default = []
  | _ => True

/-- Default content is all that the definitions may differ in. -/
inductive AgreesUpToDefaults : Definition → Definition → Prop where
  | root {header : Header} {cs ds : List Definition} (h : List.Forall₂ AgreesUpToDefaults cs ds) :
      AgreesUpToDefaults (.root header cs) (.root header ds)
  | group {header : Header} {cs ds : List Definition} (h : List.Forall₂ AgreesUpToDefaults cs ds) :
      AgreesUpToDefaults (.group header cs) (.group header ds)
  | inst {header : Header} {cs ds : List Definition} (h : List.Forall₂ AgreesUpToDefaults cs ds) :
      AgreesUpToDefaults (.inst header cs) (.inst header ds)
  | range {header : Header} {s t : Definition} {is js : List Definition}
      (template : AgreesUpToDefaults s t) (instances : List.Forall₂ AgreesUpToDefaults is js) :
      AgreesUpToDefaults (.range header s is) (.range header t js)
  | value (header : Header) (s t : String) : AgreesUpToDefaults (.value header s) (.value header t)
  | select (header : Header) (mode : SelectMode) (vs ws : List String) (items : List Item)
      (itemset : Option Itemset) :
      AgreesUpToDefaults (.select header mode vs items itemset)
        (.select header mode ws items itemset)

theorem emptied_cleared (d : Definition) : d.cleared.Emptied := by
  cases d <;> first | rfl | trivial

theorem emptied_of_mem_parts_cleared (d : Definition) : ∀ e ∈ d.cleared.parts, e.Emptied := by
  rw [parts_cleared]
  intro _ hmem
  obtain ⟨e, -, rfl⟩ := List.mem_map.mp hmem
  exact emptied_cleared e

mutual

theorem agreesUpToDefaults_cleared : (d : Definition) → AgreesUpToDefaults d.cleared d
  | .root _ cs => .root (forall₂_agrees_clearedAll cs)
  | .group _ cs => .group (forall₂_agrees_clearedAll cs)
  | .inst _ cs => .inst (forall₂_agrees_clearedAll cs)
  | .range _ t is => .range (agreesUpToDefaults_cleared t) (forall₂_agrees_clearedAll is)
  | .value _ _ => .value _ _ _
  | .select _ _ _ _ _ => .select _ _ _ _ _ _

theorem forall₂_agrees_clearedAll : (ds : List Definition) →
    List.Forall₂ AgreesUpToDefaults (clearedAll ds) ds
  | [] => .nil
  | d :: ds => .cons (agreesUpToDefaults_cleared d) (forall₂_agrees_clearedAll ds)

end

mutual

theorem cleared_cleared : (d : Definition) → d.cleared.cleared = d.cleared
  | .root h cs => congrArg (root h) (clearedAll_clearedAll cs)
  | .group h cs => congrArg (group h) (clearedAll_clearedAll cs)
  | .inst h cs => congrArg (inst h) (clearedAll_clearedAll cs)
  | .range h t is => congrArg₂ (range h) (cleared_cleared t) (clearedAll_clearedAll is)
  | .value _ _ => rfl
  | .select _ _ _ _ _ => rfl

theorem clearedAll_clearedAll : (ds : List Definition) →
    clearedAll (clearedAll ds) = clearedAll ds
  | [] => rfl
  | d :: ds => congrArg₂ List.cons (cleared_cleared d) (clearedAll_clearedAll ds)

end

/-- A repeat whose template is the first of its instances up to default content, of which the
template has none. -/
def TemplateEmptied : Definition → Prop
  | .range _ template instances =>
    (∀ e ∈ template.parts, e.Emptied) ∧
      (∀ first ∈ instances.head?, AgreesUpToDefaults template first) ∧
      (instances = [] → template.children = [])
  | _ => False

theorem templateEmptied_range (header empty : Header) (instances : List Definition) :
    (range header (instances.head?.getD (.inst empty [])).cleared instances).TemplateEmptied := by
  refine ⟨emptied_of_mem_parts_cleared _, ?_, ?_⟩
  · intro first hfirst
    rw [hfirst]
    exact agreesUpToDefaults_cleared first
  · rintro rfl
    rfl

end Definition

namespace Description

open Definition

variable {desc : Description} {d : Definition}

/-- The definition is made of the description, and perhaps default content was taken away. -/
def StandsFor (desc : Description) (d : Definition) : Prop :=
  ∃ parent made, build parent desc = .ok made ∧ (d = made ∨ d = made.cleared)

/-- A repeat that declares no template has one without default content. -/
theorem templateEmptied_of_standsFor (h : desc.StandsFor d) (hkind : desc.resolvedKind = .range)
    (hnone : desc.explicitTemplates = []) : d.TemplateEmptied := by
  obtain ⟨parent, made, hmade, hd⟩ := h
  cases (makes_of_build hmade).2 with
  | group hgroup => exact nomatch hgroup.symm.trans hkind
  | value hvalue => exact nomatch hvalue.symm.trans hkind
  | select mode hselect => cases mode <;> exact nomatch hselect.symm.trans hkind
  | @range template instances _ hrepetition =>
    rcases hrepetition.template with ⟨source, hsource, -⟩ | ⟨-, rfl⟩
    · exact nomatch hsource.symm.trans hnone
    · rcases hd with rfl | rfl
      · exact templateEmptied_range _ (desc.headerAt parent) instances
      · cases instances with
        | nil => exact templateEmptied_range _ (desc.headerAt parent) []
        | cons first rest =>
          exact templateEmptied_range _ first.header (first.cleared :: clearedAll rest)

theorem spreads_standsFor (desc : Description) :
    desc.Spreads fun d => d.type ≠ .inst → ∃ inner, desc.Below inner ∧ inner.StandsFor d where
  made hbelow h _ := ⟨_, hbelow, _, _, h, .inl rfl⟩
  inst _ _ hinst := absurd rfl hinst
  cleared d h hinst := by
    rw [type_cleared] at hinst
    obtain ⟨inner, hbelow, parent, made, hmade, hd⟩ := h hinst
    refine ⟨inner, hbelow, parent, made, hmade, .inr ?_⟩
    rcases hd with rfl | rfl
    · rfl
    · exact cleared_cleared made

end Description

end ReactiveForm
