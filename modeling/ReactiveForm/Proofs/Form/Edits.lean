import ReactiveForm.Proofs.Form.Refusals
import ReactiveForm.Proofs.Tree.Edits

/-!
# Adding and removing instances

A request that adds instances to a range or removes some is an edit of the list of its instances.
The pass that follows computes outputs and leaves all nodes in their places.
-/

set_option autoImplicit false

namespace ReactiveForm

theorem Definition.Built.sparing {e : Definition} (h : e.Built) : e.Sparing := by
  obtain ⟨description, d, hbuild, he⟩ := h
  exact Description.confers_sparing.parts_toDefinition hbuild e he

/-- The request adds as many instances of the template to the range: of its own one, or of one that
the request brings along. -/
inductive Request.Adds (t : Tree) (range : NodeId) (after : Option Int) (count : Nat)
    (template : Definition) : Request → Prop where
  | own : t.template? range = some template →
    Adds t range after count template (.addInstances range after count)
  | given : Adds t range after count template (.addInstancesFrom range after count template)

namespace Form

variable {P : Definition → Prop} {f g : Form} {r : Request} {range : NodeId} {after : Option Int}
  {count : Nat} {template : Definition}

theorem grown_of_begun (hadds : r.Adds f.tree range after count template)
    (h : f.begun r = .ok g) : f.tree.isRange range ∧
      ∃ reference, f.grown range reference after count template = .ok g := by
  cases hadds with
  | own htemplate =>
    have hrange := isRange_of_template? htemplate
    exact ⟨hrange, _, (begun_addInstances hrange htemplate after count).symm.trans h⟩
  | given =>
    obtain ⟨reference, _, h⟩ := ok_of_bind h
    split at h
    · exact nomatch h
    next own hown =>
      split at h
      · exact nomatch h
      · exact ⟨isRange_of_template? hown, reference, h⟩

theorem isRange_of_begun {start : Nat} (h : f.begun (.removeInstances range start count) = .ok g) :
    f.tree.isRange range := by
  obtain ⟨reference, _, h⟩ := ok_of_bind h
  split at h
  · exact nomatch h
  next hrange => simpa using hrange

theorem instances_eq_children (h : f.tree.isRange range) :
    f.instances range = f.tree.children range := by
  rw [instances, if_pos h]

/-- An identifier that has been live before is live now, or never again. -/
theorem Leads.not_contains {f₀ : Form} {x : NodeId} (h₀ : f₀.Reachable P) (h : f₀.Leads P f)
    (hages : f.tree.arena.Ages g.tree.arena) (hlive : g.contains x) (hnew : f.contains x = false) :
    f₀.contains x = false := by
  cases hold : f₀.contains x with
  | false => rfl
  | true =>
    rcases (h.ages h₀).contains_or_spent hold with hkept | hspent
    · exact nomatch hkept.symm.trans hnew
    · exact nomatch hlive.symm.trans (hspent.ages hages).not_contains

theorem instances_of_placed (hrange : f.tree.isRange range)
    (h : g.tree.definition? range = f.tree.definition? range) :
    g.instances range = g.tree.children range := by
  have hdefinition (t : Tree) :
      t.isRange range = (t.definition? range).any fun d => d.type = .range := by
    unfold Tree.isRange Tree.definition?
    cases t.get? range <;> rfl
  refine instances_eq_children ?_
  rw [hdefinition, h, ← hdefinition]
  exact hrange

/-- Requests for more or for fewer instances edit the list of instances and nothing else. -/
theorem Reachable.instances_edited (h : f.Reachable P) (hoffers : r.Offers P)
    (haccepted : (r.action.run f).1 = .ok ()) :
    (∀ range after count template, r.Adds f.tree range after count template →
      ∃ g new, f.begun r = .ok g ∧ f.perform r = g.recalculate ∧
        new.length = count ∧ new.Nodup ∧
        (∀ y ∈ new, g.tree.Copies template range y) ∧
        (∀ y ∈ new, ∀ x ∈ (f.perform r).tree.subtree y, ∀ f₀ : Form, f₀.Reachable P →
          f₀.Leads P f → f₀.contains x = false) ∧
        (∀ place, after = some place → (f.spot range after : Int) = place + 1) ∧
        (f.perform r).instances range = (f.instances range).take (f.spot range after) ++ new ++
          (f.instances range).drop (f.spot range after) ∧
        f.tree.Inserts (f.perform r).tree range (f.spot range after) new) ∧
    (∀ header mode default items itemset,
      (Definition.select header mode default items itemset).Built →
        Content.initial (.select header mode default items itemset)
          = .selection (default.filter fun v => items.isEmpty || items.any (·.value == v))) ∧
    ∀ range start count, r = .removeInstances range start count →
      (f.perform r).instances range = (f.instances range).take start ++
          (f.instances range).drop (start + count) ∧
        f.tree.Removes (f.perform r).tree range start count := by
  obtain ⟨g, hbegun⟩ := begun_of_accepted haccepted
  have hperform : f.perform r = g.recalculate := by rw [perform_eq, hbegun]
  have hready := h.ready.1
  have hg : g.Ready P := (hready.begins hoffers (begins_of_begun hbegun)).1
  -- the pass keeps the frame, so the lists of instances are those that the change has made
  have hframe := (sameFrame_recalculate hg.sound.toCoherent).1
  rw [← hperform] at hframe
  refine ⟨?_, fun _ _ _ _ _ hbuilt => Content.initial_select hbuilt.sparing, ?_⟩
  · intro range after count template hadds
    obtain ⟨hrange, reference, hgrown⟩ := grown_of_begun hadds hbegun
    obtain ⟨hadmits, rfl⟩ := grown_eq_ok_iff.mp hgrown
    have hconnected : (f.tree.insertInstances range (f.spot range after) count template).Connected :=
      hg.sound.connected
    have hlive : ∃ n, f.tree.get? range = some n :=
      Arena.contains_iff.mp (Tree.contains_of_isRange hrange)
    have hinserts := (Tree.inserts_insertInstances hready.sound hlive hconnected).of_sameFrame hframe
    refine ⟨_, f.tree.created range count template, hbegun, hperform,
      Tree.length_created hready.sound.arena, Tree.nodup_created hready.sound.arena,
      fun y hy => Tree.copies_created hready.sound.arena hlive hy, ?_, ?_, ?_, hinserts⟩
    · -- what was live before and is no longer never comes back, and what is new was not live before
      intro y hy x hx f₀ h₀ hleads
      have hop : (Operation.request r).Offers P := hoffers
      refine hleads.not_contains h₀ (hready.ages_carryOut hop) ?_
        (hinserts.fresh y hy x hx)
      exact (hinserts.live x).mpr (.inr ⟨y, hy, hx⟩)
    · rintro place rfl
      have hplace := hadmits place rfl
      simp only [spot]
      omega
    · rw [instances_of_placed hrange hinserts.placed.1, instances_eq_children hrange]
      exact hinserts.listed
  · rintro range start count rfl
    have hrange := isRange_of_begun hbegun
    obtain ⟨_, rfl⟩ := (begun_removeInstances_eq_ok_iff hrange).mp hbegun
    have hremoves : f.tree.Removes _ range start count :=
      (Tree.removes_removeInstances hready.sound.connected).of_sameFrame hframe
    refine ⟨?_, hremoves⟩
    rw [instances_of_placed hrange hremoves.placed.1, instances_eq_children hrange]
    exact hremoves.listed

end Form

/-! ## A repeat within a repeat -/

/-- A visit starts with one dose, and with those of the findings that are on the list. -/
def Definition.visit : Definition :=
  .inst ⟨"/f/visit", "visit", {}, none, none⟩ [
    .range ⟨"/f/visit/dose", "dose", {}, none, none⟩
      (.inst ⟨"/f/visit/dose", "dose", {}, none, none⟩ [
        .value ⟨"/f/visit/dose/mg", "mg", {}, none, none⟩ ""])
      [.inst ⟨"/f/visit/dose", "dose", {}, none, none⟩ [
        .value ⟨"/f/visit/dose/mg", "mg", {}, none, none⟩ "5"]],
    .select ⟨"/f/visit/signs", "signs", {}, none, none⟩ .multiple ["a", "c"] [⟨"a", ""⟩, ⟨"b", ""⟩]
      none]

def Definition.ward : Definition :=
  .root ⟨"/f", "f", {}, none, none⟩ [
    .range ⟨"/f/visit", "visit", {}, none, none⟩ .visit [.visit]]

def RuleBook.ward : RuleBook :=
  [("/f/visit/signs", {}), ("/f/visit/dose/mg", {}), ("/f/visit/dose", {}), ("/f/visit", {}),
    ("/f", {})]

set_option maxRecDepth 20000 in
theorem RuleBook.ofDefinition_ward : RuleBook.ofDefinition .ward = .ok .ward := by rfl

namespace Form

def ward : Form := (opened .ward {} .epoch .ward).marked.recalculate

/-- Two visits come in front of the one that is there. -/
theorem instances_edited_ward :
    let r := Request.addInstances ⟨1, 0⟩ (some (-1)) 2
    ward.instances ⟨1, 0⟩ = [⟨2, 0⟩] ∧ (r.action.run ward).1 = .ok () ∧
      ∃ g new, ward.begun r = .ok g ∧ new.length = 2 ∧
        (∀ y ∈ new, g.tree.Copies .visit ⟨1, 0⟩ y) ∧
        (ward.perform r).instances ⟨1, 0⟩ = new ++ [⟨2, 0⟩] := by
  intro r
  have hreachable : ward.Reachable fun _ => True :=
    .load rfl (fun _ _ => trivial) (load_of_ofDefinition RuleBook.ofDefinition_ward {} .epoch)
  have hinstances : ward.instances ⟨1, 0⟩ = [⟨2, 0⟩] := by decide +kernel
  have haccepted : (r.action.run ward).1 = .ok () := by decide +kernel
  have hadds : r.Adds ward.tree ⟨1, 0⟩ (some (-1)) 2 .visit := .own (by rfl)
  obtain ⟨hadded, _⟩ := hreachable.instances_edited (offers_all r) haccepted
  obtain ⟨g, new, hbegun, _, hlength, _, hcopies, _, _, hlist, _⟩ := hadded _ _ _ _ hadds
  have hspot : ward.spot ⟨1, 0⟩ (some (-1)) = 0 := rfl
  rw [hinstances, hspot] at hlist
  exact ⟨hinstances, haccepted, g, new, hbegun, hlength, hcopies, hlist⟩

end Form

end ReactiveForm
