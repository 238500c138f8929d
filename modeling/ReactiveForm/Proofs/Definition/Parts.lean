import ReactiveForm.Definition.Description
import ReactiveForm.Proofs.Tree.WellFormed

/-!
# Parts of definitions

A definition with all that it holds, templates and default instances included. What holds of all
parts of a definition holds of all parts of its parts, so it stays with the nodes that are made for
them. Every part of what a description stands for is of a type that its place allows.
-/

set_option autoImplicit false

namespace ReactiveForm

theorem ok_of_bind {ε α β : Type} {m : Except ε α} {f : α → Except ε β} {y : β}
    (h : m >>= f = .ok y) : ∃ x, m = .ok x ∧ f x = .ok y := by
  cases m with
  | error e => exact nomatch h
  | ok x => exact ⟨x, rfl, h⟩

namespace Definition

mutual

/-- Every node of the definition is of a type that the node above it may hold. -/
def Shaped : Definition → Prop
  | .root _ cs => AllShaped .root cs
  | .group _ cs => AllShaped .group cs
  | .range _ template instances =>
    template.type = .inst ∧ Shaped template ∧ AllShaped .range instances
  | .inst _ cs => AllShaped .inst cs
  | .value _ _ => True
  | .select _ _ _ _ _ => True

def AllShaped (type : NodeType) : List Definition → Prop
  | [] => True
  | d :: ds => type.holds d.type ∧ Shaped d ∧ AllShaped type ds

end

theorem AllShaped.holds {type : NodeType} {ds : List Definition} (h : AllShaped type ds) :
    ∀ d ∈ ds, type.holds d.type := by
  induction ds with
  | nil => exact fun _ hd => absurd hd List.not_mem_nil
  | cons d ds ih => exact List.forall_mem_cons.mpr ⟨h.1, ih h.2.2⟩

mutual

/-- The definition and all definitions that it holds. -/
def parts : Definition → List Definition
  | root h cs => root h cs :: partsAmong cs
  | group h cs => group h cs :: partsAmong cs
  | range h template instances =>
    range h template instances :: (parts template ++ partsAmong instances)
  | inst h cs => inst h cs :: partsAmong cs
  | value h default => [value h default]
  | select h mode default items itemset => [select h mode default items itemset]

def partsAmong : List Definition → List Definition
  | [] => []
  | d :: ds => parts d ++ partsAmong ds

end

theorem self_mem_parts (d : Definition) : d ∈ d.parts := by
  cases d <;> exact List.mem_cons_self

theorem mem_partsAmong {e : Definition} {ds : List Definition} :
    e ∈ partsAmong ds ↔ ∃ d ∈ ds, e ∈ d.parts := by
  induction ds with
  | nil => simp [partsAmong]
  | cons d ds ih => simp [partsAmong, ih]

mutual

theorem parts_subset {e : Definition} : (d : Definition) → e ∈ d.parts → e.parts ⊆ d.parts
  | root h cs, he => by
    rcases List.mem_cons.mp he with rfl | he
    · exact fun _ hx => hx
    · exact fun _ hx => List.mem_cons_of_mem _ (partsAmong_subset cs he hx)
  | group h cs, he => by
    rcases List.mem_cons.mp he with rfl | he
    · exact fun _ hx => hx
    · exact fun _ hx => List.mem_cons_of_mem _ (partsAmong_subset cs he hx)
  | range h template instances, he => by
    rcases List.mem_cons.mp he with rfl | he
    · exact fun _ hx => hx
    · intro x hx
      refine List.mem_cons_of_mem _ (List.mem_append.mpr ?_)
      rcases List.mem_append.mp he with he | he
      · exact .inl (parts_subset template he hx)
      · exact .inr (partsAmong_subset instances he hx)
  | inst h cs, he => by
    rcases List.mem_cons.mp he with rfl | he
    · exact fun _ hx => hx
    · exact fun _ hx => List.mem_cons_of_mem _ (partsAmong_subset cs he hx)
  | value h default, he => by
    obtain rfl := List.mem_singleton.mp he
    exact fun _ hx => hx
  | select h mode default items itemset, he => by
    obtain rfl := List.mem_singleton.mp he
    exact fun _ hx => hx

theorem partsAmong_subset {e : Definition} :
    (ds : List Definition) → e ∈ partsAmong ds → e.parts ⊆ partsAmong ds
  | [], he => absurd he List.not_mem_nil
  | d :: ds, he => by
    intro x hx
    refine List.mem_append.mpr ?_
    rcases List.mem_append.mp he with he | he
    · exact .inl (parts_subset d he hx)
    · exact .inr (partsAmong_subset ds he hx)

end

mutual

theorem Shaped.part {e : Definition} : (d : Definition) → d.Shaped → e ∈ d.parts → e.Shaped
  | root h cs, hd, he => by
    rcases List.mem_cons.mp he with rfl | he
    · exact hd
    · exact AllShaped.part cs hd he
  | group h cs, hd, he => by
    rcases List.mem_cons.mp he with rfl | he
    · exact hd
    · exact AllShaped.part cs hd he
  | range h template instances, hd, he => by
    rcases List.mem_cons.mp he with rfl | he
    · exact hd
    · rcases List.mem_append.mp he with he | he
      · exact Shaped.part template hd.2.1 he
      · exact AllShaped.part instances hd.2.2 he
  | inst h cs, hd, he => by
    rcases List.mem_cons.mp he with rfl | he
    · exact hd
    · exact AllShaped.part cs hd he
  | value h default, hd, he => by
    obtain rfl := List.mem_singleton.mp he
    exact hd
  | select h mode default items itemset, hd, he => by
    obtain rfl := List.mem_singleton.mp he
    exact hd

theorem AllShaped.part {e : Definition} {type : NodeType} :
    (ds : List Definition) → AllShaped type ds → e ∈ partsAmong ds → e.Shaped
  | [], _, he => absurd he List.not_mem_nil
  | d :: ds, hds, he => by
    rcases List.mem_append.mp he with he | he
    · exact Shaped.part d hds.2.1 he
    · exact AllShaped.part ds hds.2.2 he

end

end Definition

/-! ## Descriptions -/

namespace Definition

theorem type_cleared (d : Definition) : d.cleared.type = d.type := by
  cases d <;> rfl

mutual

/-- A definition without its default content is shaped as it was. -/
theorem shaped_cleared : (d : Definition) → d.Shaped → d.cleared.Shaped
  | root h cs, hd => allShaped_cleared cs hd
  | group h cs, hd => allShaped_cleared cs hd
  | range h template instances, hd => by
    refine ⟨?_, shaped_cleared template hd.2.1, allShaped_cleared instances hd.2.2⟩
    rw [type_cleared]
    exact hd.1
  | inst h cs, hd => allShaped_cleared cs hd
  | value h default, _ => trivial
  | select h mode default items itemset, _ => trivial

theorem allShaped_cleared {type : NodeType} :
    (ds : List Definition) → AllShaped type ds → AllShaped type (clearedAll ds)
  | [], _ => trivial
  | d :: ds, hds => by
    refine ⟨?_, shaped_cleared d hds.2.1, allShaped_cleared ds hds.2.2⟩
    rw [type_cleared]
    exact hds.1

end

theorem header_cleared (d : Definition) : d.cleared.header = d.header := by
  cases d <;> rfl

theorem clearedAll_eq_map (ds : List Definition) : clearedAll ds = ds.map cleared := by
  induction ds with
  | nil => rfl
  | cons d ds ih => rw [clearedAll, ih, List.map_cons]

mutual

theorem parts_cleared : (d : Definition) → d.cleared.parts = d.parts.map cleared
  | root h cs => by simp [cleared, parts, partsAmong_clearedAll cs]
  | group h cs => by simp [cleared, parts, partsAmong_clearedAll cs]
  | range h template instances => by
    simp [cleared, parts, parts_cleared template, partsAmong_clearedAll instances]
  | inst h cs => by simp [cleared, parts, partsAmong_clearedAll cs]
  | value h default => rfl
  | select h mode default items itemset => rfl

theorem partsAmong_clearedAll : (ds : List Definition) →
    partsAmong (clearedAll ds) = (partsAmong ds).map cleared
  | [] => rfl
  | d :: ds => by simp [clearedAll, partsAmong, parts_cleared d, partsAmong_clearedAll ds]

end

/-- All parts of the definitions have the property. -/
def AllParts (P : Definition → Prop) (ds : List Definition) : Prop := ∀ e ∈ partsAmong ds, P e

variable {P : Definition → Prop} {d : Definition} {ds : List Definition}

theorem allParts_iff : AllParts P ds ↔ ∀ d ∈ ds, AllParts P [d] := by
  simp only [AllParts, mem_partsAmong, List.mem_singleton]
  constructor
  · rintro h d hd e ⟨_, rfl, he⟩
    exact h e ⟨_, hd, he⟩
  · rintro h e ⟨d, hd, he⟩
    exact h d hd e ⟨d, rfl, he⟩

theorem allParts_nil : AllParts P [] := fun _ he => absurd he List.not_mem_nil

/-- The parts of a definition have the property if it has it itself and so has all that it holds. -/
theorem allParts_of_parts (hd : P d) (hds : AllParts P ds) (hparts : d.parts ⊆ d :: partsAmong ds) :
    AllParts P [d] := by
  intro e hmem
  obtain ⟨d', hd', he⟩ := mem_partsAmong.mp hmem
  obtain rfl := List.mem_singleton.mp hd'
  rcases List.mem_cons.mp (hparts he) with rfl | he
  · exact hd
  · exact hds e he

theorem AllParts.cleared (hP : ∀ e, P e → P e.cleared) (h : AllParts P [d]) :
    AllParts P [d.cleared] := by
  have hmap : partsAmong [d.cleared] = (partsAmong [d]).map Definition.cleared :=
    partsAmong_clearedAll [d]
  rintro _ hmem
  rw [hmap] at hmem
  obtain ⟨e, he, rfl⟩ := List.mem_map.mp hmem
  exact hP e (h e he)

end Definition

end ReactiveForm
