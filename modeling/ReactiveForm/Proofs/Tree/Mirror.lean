import ReactiveForm.Proofs.Definition.Names
import ReactiveForm.Proofs.Tree.Frame
import ReactiveForm.Proofs.Tree.Growth

/-!
# Trees in the image of their definitions

A node has a child for each child of its definition, in their order, and what stands in a range has
the name of the range. A tree is so when a form starts, and stays so as instances come and go. Where
no definition names two of its children alike, the children of a node can be told apart by name.
-/

set_option autoImplicit false

namespace ReactiveForm

/-- What stands below a new node of a definition: its children, or the instances that a repeat
starts with. -/
def Definition.offspring : Definition → List Definition
  | range _ _ instances => instances
  | d => d.children

namespace Arena

def definition? (a : Arena Node) (id : NodeId) : Option Definition :=
  (a.get? id).map fun n => n.definition

variable {a a' a₁ a₂ : Arena Node}

theorem definition?_kept (hkept : ∀ {x n}, a.get? x = some n → a'.get? x = some n) {x : NodeId}
    {d : Definition} (h : a.definition? x = some d) : a'.definition? x = some d := by
  obtain ⟨n, hn, hd⟩ := Option.map_eq_some_iff.mp h
  rw [definition?, hkept hn]
  exact congrArg some hd

theorem definition?_modify (a : Arena Node) (id : NodeId) {f : Node → Node}
    (hf : ∀ n, (f n).definition = n.definition) :
    (a.modify id f).definition? = a.definition? := by
  funext x
  rw [definition?, definition?, get?_modify]
  split
  next h =>
    rw [h, Option.map_map]
    exact congrArg (fun g => (a.get? id).map g) (funext hf)
  next => rfl

/-- Nodes with given definitions keep these as long as they are kept themselves. -/
theorem map_definition?_kept (hkept : ∀ {x n}, a.get? x = some n → a'.get? x = some n)
    {ids : List NodeId} {ds : List Definition} (h : ids.map a.definition? = ds.map some) :
    ids.map a'.definition? = ds.map some := by
  rw [← h]
  refine List.map_congr_left fun x hx => ?_
  have hmem : a.definition? x ∈ ds.map some := h ▸ List.mem_map_of_mem hx
  obtain ⟨d, _, hd⟩ := List.mem_map.mp hmem
  rw [← hd]
  exact definition?_kept hkept hd.symm

/-- Nodes that are new in `a'` hold nodes for the definitions that theirs wants below it. -/
def Stocked (a a' : Arena Node) : Prop :=
  ∀ x n, a.get? x = none → a'.get? x = some n →
    n.children.map a'.definition? = n.definition.offspring.map some

theorem Grown.map_definition? {typed : Prop} {parent : Option NodeId} {tops : List NodeId}
    {ds : List Definition} (h : Grown typed a a' parent tops ds) :
    tops.map a'.definition? = ds.map some := by
  rw [← List.forall₂_eq_eq_eq, List.forall₂_map_left_iff, List.forall₂_map_right_iff]
  refine h.tops_new.imp fun id d hnew => ?_
  obtain ⟨_, n, hn, hd, _⟩ := hnew
  rw [definition?, hn]
  exact congrArg some hd

namespace Stocked

theorem leaf (h : a.Sound) {d : Definition} (hd : d.offspring = []) (parent : Option NodeId) :
    Stocked a (a.alloc (.fresh d parent)).2 := by
  intro x n hnone hn
  obtain ⟨_, rfl⟩ := h.eq_of_get?_alloc hnone hn
  have hnil : (Node.fresh d parent).definition.offspring = [] := hd
  rw [hnil]
  rfl

theorem trans (h : Stocked a a₁) (h' : Stocked a₁ a₂)
    (hkept : ∀ {x n}, a₁.get? x = some n → a₂.get? x = some n) : Stocked a a₂ := by
  intro x n hnone hn
  cases hx : a₁.get? x with
  | some m =>
    obtain rfl : m = n := Option.some.inj ((hkept hx).symm.trans hn)
    exact map_definition?_kept hkept (h x m hnone hx)
  | none => exact h' x n hx hn

theorem graft {d : Definition} {parent : Option NodeId} (h : a.Sound)
    {below : NodeId → Arena Node → List NodeId × Arena Node}
    (hgrown : ∀ id (a : Arena Node), a.Sound →
      Grown False a (below id a).2 (some id) (below id a).1 d.offspring)
    (hstocked : ∀ id (a : Arena Node), a.Sound → Stocked a (below id a).2) :
    Stocked a (a.graft (.fresh d parent) below).2 := by
  have hsound : (a.alloc (.fresh d parent)).2.Sound := h.alloc _
  intro x n hnone hn
  have hdefinition : (a.graft (.fresh d parent) below).2.definition? =
      (below (a.alloc (.fresh d parent)).1 (a.alloc (.fresh d parent)).2).2.definition? :=
    definition?_modify _ _ fun _ => rfl
  rw [hdefinition]
  rcases new_graft h (.fresh d parent) (fun id a h => (hgrown id a h).kept) hnone hn with
    ⟨_, rfl⟩ | ⟨hx₁, hx₂⟩
  · exact (hgrown _ _ hsound).map_definition?
  · exact hstocked _ _ hsound x n hx₁ hx₂

end Stocked

mutual

theorem stocked_plant (parent : Option NodeId) {a : Arena Node} (h : a.Sound) :
    (d : Definition) → Stocked a (plant parent a d).2
  | .root header cs => by
    simp only [plant]
    exact .graft h (fun id _ h => grown_below id h cs) fun id a h => stocked_plantAll id h cs
  | .group header cs => by
    simp only [plant]
    exact .graft h (fun id _ h => grown_below id h cs) fun id a h => stocked_plantAll id h cs
  | .range header template instances => by
    simp only [plant]
    exact .graft h (fun id _ h => grown_below id h instances)
      fun id a h => stocked_plantAll id h instances
  | .inst header cs => by
    simp only [plant]
    exact .graft h (fun id _ h => grown_below id h cs) fun id a h => stocked_plantAll id h cs
  | .value _ _ => by
    simp only [plant]
    exact .leaf h rfl parent
  | .select _ _ _ _ _ => by
    simp only [plant]
    exact .leaf h rfl parent

theorem stocked_plantAll (parent : NodeId) {a : Arena Node} (h : a.Sound) :
    (ds : List Definition) → Stocked a (plantAll parent a ds).2
  | [] => by
    simp only [plantAll]
    exact fun _ _ hnone hn => nomatch hnone.symm.trans hn
  | d :: ds => by
    have hfirst := grown_plant (some parent) h d False.elim
    simp only [plantAll]
    exact (stocked_plant (some parent) h d).trans (stocked_plantAll parent hfirst.sound ds)
      (grown_below parent hfirst.sound ds).kept

end

end Arena

namespace Tree

/-- The children of a node are those of its definition, in their order; what stands in a range has
the name of the range. -/
structure Mirrored (definition? : NodeId → Option Definition) (n : Node) : Prop where
  children : n.isRange = false → n.children.map definition? = n.definition.children.map some
  instances : n.isRange → ∀ c ∈ n.children, ∃ d, definition? c = some d ∧ d.name = n.definition.name

def Mirrors (t : Tree) : Prop := ∀ x n, t.get? x = some n → Mirrored t.definition? n

variable {t t' : Tree} {n : Node} {look look' : NodeId → Option Definition}

theorem Mirrored.of_children (h : Mirrored look n) (hlook : ∀ c ∈ n.children, look' c = look c) :
    Mirrored look' n where
  children hrange := by
    rw [List.map_congr_left hlook]
    exact h.children hrange
  instances hrange c hc := by
    rw [hlook c hc]
    exact h.instances hrange c hc

/-- A new node that holds what its definition wants below it. -/
theorem mirrored_of_offspring (hnamed : n.definition.Named)
    (h : n.children.map look = n.definition.offspring.map some) : Mirrored look n := by
  constructor
  · intro hrange
    rw [h]
    cases hd : n.definition with
    | range => simp [Node.isRange, hd, Definition.type] at hrange
    | root | group | inst | value | select => rfl
  · intro hrange c hc
    have hmem : look c ∈ n.definition.offspring.map some := h ▸ List.mem_map_of_mem hc
    obtain ⟨d, hd, heq⟩ := List.mem_map.mp hmem
    refine ⟨d, heq.symm, hnamed.repeated d ?_⟩
    cases hn : n.definition with
    | range header template instances =>
      rw [hn] at hd
      exact List.mem_cons_of_mem template hd
    | root | group | inst | value | select => simp [Node.isRange, hn, Definition.type] at hrange

/-- A tree with the same links as one in the image of its definitions is so itself. -/
theorem Mirrors.of_sameLinks (h : t.Mirrors) (hsame : t.SameLinks t') : t'.Mirrors := by
  intro x n' hn'
  rcases hsame.get?_cases x with ⟨_, hnone⟩ | ⟨n, m', hn, hm', hdefinition, _, hchildren⟩
  · exact nomatch hnone.symm.trans hn'
  · obtain rfl : m' = n' := Option.some.inj (hm'.symm.trans hn')
    have hlook : t'.definition? = t.definition? := funext hsame.definition?_eq
    have hmirrored := h x n hn
    constructor
    · rw [Node.isRange, hdefinition, hchildren, hlook]
      exact hmirrored.children
    · rw [Node.isRange, hdefinition, hchildren, hlook]
      exact hmirrored.instances

theorem mirrors_ofDefinition {d : Definition} (h : ∀ e ∈ d.parts, e.Named) :
    (ofDefinition d).Mirrors := by
  intro x n hn
  have hnamed := throughout_ofDefinition h x n hn _ n.definition.self_mem_parts
  exact mirrored_of_offspring hnamed (Arena.stocked_plant none Arena.sound_empty d x n rfl hn)

/-! ## Instances -/

variable {typed : Prop} {range : NodeId} {place count : Nat} {template : Definition}

/-- New instances have the name of the range if their template has it. -/
theorem Mirrors.insertInstances (h : t.Mirrors) (hs : t.Sound typed) {r : Node}
    (hr : t.get? range = some r) (hrange : r.isRange) (hname : template.name = r.definition.name)
    (hnamed : ∀ e ∈ template.parts, e.Named) :
    (t.insertInstances range place count template).Mirrors := by
  have hgrown := Arena.grown_below range hs.arena (List.replicate count template)
  have hstocked := Arena.stocked_plantAll range hs.arena (List.replicate count template)
  have hlook : (t.insertInstances range place count template).definition?
      = (Arena.plantAll range t.arena (List.replicate count template)).2.definition? :=
    Arena.definition?_modify _ range fun _ => rfl
  intro x n hn
  rw [hlook]
  rw [get?_insertInstances] at hn
  -- the range has new instances of its name; other old nodes are as before, and new ones as made
  by_cases hx : x = range
  · rw [if_pos hx, hgrown.kept hr] at hn
    obtain rfl := Option.some.inj hn
    refine ⟨fun hno => (nomatch hno.symm.trans hrange), fun _ c hc => ?_⟩
    rcases (mem_splice place).mp hc with hc | hc
    · obtain ⟨d, hd, hsame⟩ := (h range r hr).instances hrange c hc
      exact ⟨d, Arena.definition?_kept hgrown.kept hd, hsame⟩
    · obtain ⟨d, hd, _, m, hm, rfl, _⟩ := hgrown.exists_top hc
      refine ⟨m.definition, by rw [Arena.definition?, hm]; rfl, ?_⟩
      rw [List.eq_of_mem_replicate hd]
      exact hname
  · rw [if_neg hx] at hn
    cases hold : t.get? x with
    | some m =>
      obtain rfl : m = n := Option.some.inj ((hgrown.kept hold).symm.trans hn)
      refine (h x m hold).of_children fun c hc => ?_
      obtain ⟨_, k, hk, _⟩ := (hs.placed hold).down c hc
      have hbefore : t.definition? c = some k.definition := congrArg (Option.map _) hk
      rw [hbefore]
      exact Arena.definition?_kept hgrown.kept hbefore
    | none =>
      obtain ⟨d, hd, hmem⟩ := Definition.mem_partsAmong.mp (hgrown.stems hold hn)
      rw [List.eq_of_mem_replicate hd] at hmem
      exact mirrored_of_offspring (hnamed _ hmem) (hstocked x n hold hn)

theorem Mirrors.removeInstances (h : t.Mirrors) (hs : t.Sound typed) (hrange : t.isRange range) :
    (t.removeInstances range place count).2.Mirrors := by
  have hsound := hs.removeInstances range place count
  intro x n hn
  -- what the node still lists is still there, with the definition that it had
  have hkept : ∀ c ∈ n.children,
      (t.removeInstances range place count).2.definition? c = t.definition? c := by
    intro c hc
    refine definition?_removeInstances fun hremoved => ?_
    obtain ⟨_, k, hk, _⟩ := (hsound.placed hn).down c hc
    have hgone : (t.removeInstances range place count).2.get? c = none := by
      rw [get?_removeInstances, if_pos hremoved]
    cases hgone.symm.trans hk
  rw [get?_removeInstances] at hn
  split at hn
  · cases hn
  · obtain ⟨m, hm, rfl⟩ := Option.map_eq_some_iff.mp hn
    by_cases hx : x = range
    · subst hx
      simp only [if_true] at hkept ⊢
      have htype : m.isRange := by simpa [isRange, hm] using hrange
      refine Mirrored.of_children ⟨fun hno => absurd hno (ne_false_of_eq_true htype), ?_⟩ hkept
      intro _ c hc
      refine (h x m hm).instances htype c ?_
      rw [← children_of_get? hm]
      rcases List.mem_append.mp hc with hc | hc
      · exact List.mem_of_mem_take hc
      · exact List.mem_of_mem_drop hc
    · simp only [if_neg hx] at hkept ⊢
      exact (h x m hm).of_children hkept

/-! ## Names -/

def name? (t : Tree) (id : NodeId) : Option String := (t.definition? id).map fun d => d.name

theorem name?_of_get? {id : NodeId} (hn : t.get? id = some n) :
    t.name? id = some n.definition.name := by
  rw [name?, definition?, hn]
  rfl

theorem Mirrors.name?_instance (h : t.Mirrors) {c : NodeId} (hrange : t.isRange range)
    (hc : c ∈ t.children range) : t.name? c = t.name? range := by
  obtain ⟨r, hr, htype⟩ := isRange_iff.mp hrange
  rw [children_of_get? hr] at hc
  obtain ⟨d, hd, hname⟩ := (h range r hr).instances (by simp [Node.isRange, htype]) c hc
  rw [name?_of_get? hr, name?, hd]
  exact congrArg some hname

/-- Where no definition names two of its children alike, siblings outside of ranges can be told
apart by name. -/
theorem Mirrors.eq_of_name (h : t.Mirrors)
    (hdistinct : t.Throughout fun d => (d.children.map (·.name)).Nodup) {p c c' : NodeId}
    (hp : t.isRange p = false) (hc : c ∈ t.children p) (hc' : c' ∈ t.children p)
    (hname : t.name? c = t.name? c') : c = c' := by
  obtain ⟨m, hm, _⟩ := get?_of_mem_children hc
  rw [children_of_get? hm] at hc hc'
  have hchildren := (h p m hm).children (by simpa [isRange, hm] using hp)
  have hnames : m.children.map t.name? = (m.definition.children.map (·.name)).map some := by
    have hnames := congrArg (List.map (Option.map (·.name))) hchildren
    rw [List.map_map, List.map_map] at hnames
    rw [List.map_map]
    exact hnames
  have hnodup : (m.children.map t.name?).Nodup := by
    rw [hnames]
    exact (hdistinct p m hm _ m.definition.self_mem_parts).map (fun _ _ => Option.some.inj)
  exact List.inj_on_of_nodup_map hnodup hc hc' hname

end Tree

end ReactiveForm
