import ReactiveForm.Proofs.Definition.Names

/-!
# References in definitions

The reference of a part is that of what holds it, followed by its name; what a repeat repeats has
the reference of the repeat.
-/

set_option autoImplicit false

namespace ReactiveForm

namespace Definition

/-- Children are named below the definition, and what it repeats has its reference. -/
structure Referenced (d : Definition) : Prop where
  below : ∀ c ∈ d.children, c.reference = d.reference ++ "/" ++ c.name
  repeated : ∀ e ∈ d.repeated, e.reference = d.reference

theorem children_cleared (d : Definition) : d.cleared.children = d.children.map cleared := by
  cases d with
  | root | group | inst => simp [cleared, children, clearedAll_eq_map]
  | range | value | select => rfl

theorem reference_cleared (d : Definition) : d.cleared.reference = d.reference := by
  rw [reference, reference, header_cleared]

theorem name_cleared (d : Definition) : d.cleared.name = d.name := by
  rw [name, name, header_cleared]

theorem Referenced.cleared {d : Definition} (h : d.Referenced) : d.cleared.Referenced where
  below := by
    rw [children_cleared]
    rintro _ hmem
    obtain ⟨c, hc, rfl⟩ := List.mem_map.mp hmem
    rw [reference_cleared, reference_cleared, name_cleared]
    exact h.below c hc
  repeated := by
    rw [repeated_cleared]
    rintro _ hmem
    obtain ⟨e, he, rfl⟩ := List.mem_map.mp hmem
    rw [reference_cleared, reference_cleared]
    exact h.repeated e he

end Definition

namespace Description

open Definition

variable {parent : String} {desc : Description} {d : Definition}

theorem reference_of_build (h : build parent desc = .ok d) :
    d.reference = parent ++ "/" ++ d.name := by
  cases (makes_of_build h).2 <;> rfl

theorem referenced_of_buildAll {descs : List Description} (hnone : d.repeated = [])
    (h : buildAll d.reference descs = .ok d.children) : d.Referenced where
  below c hc := by
    obtain ⟨_, _, hc⟩ := exists_of_mem_buildAll h c hc
    exact reference_of_build hc
  repeated := by
    rw [hnone]
    exact fun _ he => absurd he List.not_mem_nil

theorem spreads_referenced (desc : Description) : desc.Spreads Referenced where
  made _ h := by
    cases (makes_of_build h).2 with
    | group _ hcs => exact referenced_of_buildAll rfl hcs
    | value | select => exact ⟨nofun, nofun⟩
    | range hkind hrepetition =>
      refine ⟨nofun, ?_⟩
      exact hrepetition.all (P := fun e => e.reference = _) hkind
        (fun _ _ _ he => (congrArg Header.reference he.header :))
        (fun e he => (reference_cleared e).trans he)
  inst _ hcs := referenced_of_buildAll rfl hcs
  cleared _ h := h.cleared

/-- Every part of the definition of a form is referenced properly. -/
theorem referenced_toDefinition (h : desc.toDefinition = .ok d) : ∀ e ∈ d.parts, e.Referenced := by
  intro e he
  rcases (spreads_referenced desc).parts_toDefinition h e he with rfl | he
  · obtain ⟨-, -, cs, rfl, hcs⟩ := root_of_toDefinition h
    exact referenced_of_buildAll rfl hcs
  · exact he

end Description

end ReactiveForm
