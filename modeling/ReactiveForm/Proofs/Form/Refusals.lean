import ReactiveForm.Proofs.Form.Identity
import ReactiveForm.Proofs.Form.Relevance

/-!
# Refusals

An action that is refused changes nothing. Instances are added behind an instance that a range has
or at the front, and removed among those that it has; anything else is refused.
-/

set_option autoImplicit false

namespace ReactiveForm

namespace Tree

variable {t : Tree} {range : NodeId}

theorem exists_template? (h : t.isRange range) : ∃ template, t.template? range = some template := by
  obtain ⟨n, hn, htype⟩ := isRange_iff.mp h
  have hdefinition : t.definition? range = some n.definition := by simp [definition?, hn]
  cases hd : n.definition with
  | range header template instances =>
    refine ⟨template, ?_⟩
    unfold template?
    rw [hdefinition, hd]
  | root | group | inst | value | select =>
    rw [hd] at htype
    cases htype

theorem contains_of_isRange (h : t.isRange range) : t.contains range := by
  obtain ⟨n, hn, _⟩ := isRange_iff.mp h
  exact Arena.contains_iff.mpr ⟨n, hn⟩

end Tree

namespace Form

variable {f g : Form} {range : NodeId}

/-- Where new instances go: before the instance that has this place. -/
def spot (f : Form) (range : NodeId) : Option Int → Nat
  | none => (f.instances range).length
  | some place => (place + 1).toNat

/-- Instances may be added at the end, at the front, and behind any instance. -/
def Admits (f : Form) (range : NodeId) (after : Option Int) : Prop :=
  ∀ place, after = some place → -1 ≤ place ∧ place ≤ (f.instances range).length - 1

theorem admits_iff {after : Option Int} : f.Admits range after ↔
    ¬ (after.getD ((f.instances range).length - 1) < -1 ∨
      (f.instances range).length - 1 < after.getD ((f.instances range).length - 1)) := by
  cases after with
  | none =>
    simp only [Admits, reduceCtorEq, false_implies, implies_true, true_iff, Option.getD_none]
    omega
  | some place =>
    simp only [Admits, Option.some.injEq, forall_eq', Option.getD_some]
    omega

theorem spot_eq (after : Option Int) : f.spot range after
    = (after.getD ((f.instances range).length - 1) + 1).toNat := by
  cases after with
  | none =>
    simp only [spot, Option.getD_none]
    omega
  | some place => rfl

theorem grown_eq_ok_iff {reference : String} {after : Option Int} {count : Nat}
    {template : Definition} : f.grown range reference after count template = .ok g ↔
      f.Admits range after ∧ g = marked
        { f with tree := f.tree.insertInstances range (f.spot range after) count template } := by
  unfold grown
  rw [admits_iff, spot_eq]
  dsimp only
  split
  next hout =>
    simp only [Bool.or_eq_true, decide_eq_true_eq] at hout
    exact ⟨nofun, fun h => absurd hout h.1⟩
  next hin =>
    simp only [Bool.or_eq_true, decide_eq_true_eq] at hin
    exact ⟨fun h => ⟨hin, (Except.ok.inj h).symm⟩, fun h => congrArg Except.ok h.2.symm⟩

theorem checkLive_of_isRange (h : f.tree.isRange range) :
    f.checkLive range = .ok (f.tree.reference range) := by
  simp [checkLive, Tree.contains_of_isRange h]

theorem begun_addInstances (hrange : f.tree.isRange range) {template : Definition}
    (htemplate : f.tree.template? range = some template) (after : Option Int) (count : Nat) :
    f.begun (.addInstances range after count)
      = f.grown range (f.tree.reference range) after count template := by
  unfold begun
  simp only [checkLive_of_isRange hrange, htemplate]
  rfl

theorem begun_removeInstances_eq_ok_iff (hrange : f.tree.isRange range) {start count : Nat} :
    f.begun (.removeInstances range start count) = .ok g ↔
      (start < (f.instances range).length ∧ count ≤ (f.instances range).length - start) ∧
        g = marked
          { f with
            tree := (f.tree.removeInstances range start count).2
            schedule := f.schedule.forget (f.tree.removeInstances range start count).1 } := by
  unfold begun
  simp only [checkLive_of_isRange hrange, hrange]
  change (if (_ || _ : Bool) then (Except.error _ : Except Refusal Form) else _) = _ ↔ _
  split
  next hout =>
    simp only [Bool.or_eq_true, decide_eq_true_eq] at hout
    refine ⟨nofun, fun h => ?_⟩
    omega
  next hin =>
    simp only [Bool.or_eq_true, decide_eq_true_eq] at hin
    refine ⟨fun h => ⟨by omega, (Except.ok.inj h).symm⟩, fun h => congrArg Except.ok h.2.symm⟩

/-- A request is accepted where it makes a change. -/
theorem run_eq_ok_iff (f : Form) (r : Request) :
    (r.action.run f).1 = .ok () ↔ ∃ g, f.begun r = .ok g := by
  refine ⟨begun_of_accepted, fun ⟨g, hbegun⟩ => ?_⟩
  rw [run_action, hbegun]
  rfl

theorem run_of_refused (f : Form) (r : Request) {e : Refusal}
    (h : (r.action.run f).1 = .error e) : (r.action.run f).2 = f := by
  rw [run_action] at h ⊢
  cases hbegun : f.begun r with
  | error => rfl
  | ok g =>
    rw [hbegun] at h
    exact nomatch h

theorem run_register_of_refused (f : Form) {name : String} {parameterTags : List String}
    {resultTag : String} {body : Body ViewNode} {e : RegistrationError}
    (h : ((register name parameterTags resultTag body).run f).1 = .error e) :
    ((register name parameterTags resultTag body).run f).2 = f := by
  unfold register at h ⊢
  rw [run_get] at h ⊢
  cases hlibrary : f.logic.library.register name parameterTags resultTag body with
  | error => rfl
  | ok library =>
    rw [hlibrary] at h
    exact nomatch h

/-- What is refused changes nothing. Whether instances may be added to a range or removed from it
depends on the number of its instances alone. -/
theorem refused_unchanged_and_accepted_in_range (f : Form) :
    (∀ (r : Request) (e : Refusal), (r.action.run f).1 = .error e → (r.action.run f).2 = f) ∧
    (∀ name parameterTags resultTag body e,
      ((register name parameterTags resultTag body).run f).1 = .error e →
      ((register name parameterTags resultTag body).run f).2 = f) ∧
    ∀ range, f.tree.isRange range →
      (∀ (after : Option Int) (count : Nat),
        ((addInstances range after count).run f).1 = .ok () ↔
          ∀ place, after = some place →
            -1 ≤ place ∧ place ≤ ((f.instances range).length : Int) - 1) ∧
      ∀ start count : Nat,
        ((removeInstances range start count).run f).1 = .ok () ↔
          start < (f.instances range).length ∧ count ≤ (f.instances range).length - start := by
  refine ⟨fun r e h => f.run_of_refused r h,
    fun _ _ _ _ _ h => f.run_register_of_refused h, fun range hrange => ⟨?_, ?_⟩⟩
  · intro after count
    obtain ⟨template, htemplate⟩ := Tree.exists_template? hrange
    refine (f.run_eq_ok_iff (.addInstances range after count)).trans ?_
    simp only [begun_addInstances hrange htemplate, grown_eq_ok_iff, exists_and_left,
      exists_eq, and_true]
    rfl
  · intro start count
    refine (f.run_eq_ok_iff (.removeInstances range start count)).trans ?_
    simp only [begun_removeInstances_eq_ok_iff hrange, exists_and_left, exists_eq, and_true]

/-- The repeat of `rollFull` has one instance: one may be added in front of it or behind it. -/
theorem accepted_in_range_roll :
    ((addInstances ⟨1, 0⟩ (some (-1)) 2).run rollFull).1 = .ok () ∧
      ((addInstances ⟨1, 0⟩ (some 1) 2).run rollFull).1 ≠ .ok () ∧
      ((removeInstances ⟨1, 0⟩ 0 1).run rollFull).1 = .ok () ∧
      ((removeInstances ⟨1, 0⟩ 1 0).run rollFull).1 ≠ .ok () := by
  have hrange : rollFull.tree.isRange ⟨1, 0⟩ := by decide +kernel
  have hsize : (rollFull.instances ⟨1, 0⟩).length = 1 := by decide +kernel
  obtain ⟨_, _, haccepted⟩ := refused_unchanged_and_accepted_in_range rollFull
  obtain ⟨hadd, hremove⟩ := haccepted ⟨1, 0⟩ hrange
  rw [hsize] at hadd hremove
  refine ⟨(hadd _ _).mpr ?_, fun h => ?_, (hremove _ _).mpr ?_, fun h => ?_⟩
  · rintro place ⟨⟩
    decide
  · exact absurd ((hadd _ _).mp h 1 rfl) (by decide)
  · decide
  · exact absurd ((hremove _ _).mp h) (by decide)

end Form

end ReactiveForm
