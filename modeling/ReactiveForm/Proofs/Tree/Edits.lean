import ReactiveForm.Proofs.Definition.Defaults
import ReactiveForm.Proofs.Tree.Identity
import ReactiveForm.Proofs.Tree.Mirror

/-!
# Edits of the instances of a range

New instances are copies of their template, node for node, and take their place in the list of
instances that the range has. Instances that are removed go with all that stands below them. No
other node is touched.
-/

set_option autoImplicit false

namespace ReactiveForm

/-! ## Default content -/

/-- A selection starts with those of its default values that are among its items, if it has any. -/
theorem Content.initial_select {header : Header} {mode : SelectMode} {default : List String}
    {items : List Item} {itemset : Option Itemset}
    (h : (Definition.select header mode default items itemset).Sparing) :
    Content.initial (.select header mode default items itemset)
      = .selection (default.filter fun v => items.isEmpty || items.any (·.value == v)) := by
  cases mode with
  | multiple => rfl
  | single =>
    have hlength : default.length ≤ 1 := h
    have hfilter := List.length_filter_le
      (fun v => items.isEmpty || items.any (·.value == v)) default
    exact congrArg Content.selection (List.take_of_length_le (Nat.le_trans hfilter hlength))

theorem Definition.sizeOf_offspring {d e : Definition} (h : e ∈ d.offspring) :
    sizeOf e < sizeOf d := by
  cases d with
  | root header cs | group header cs | inst header cs =>
    have hlt : sizeOf e < sizeOf cs := List.sizeOf_lt_of_mem h
    simp only [root.sizeOf_spec, group.sizeOf_spec, inst.sizeOf_spec]
    omega
  | range header template instances =>
    have hlt : sizeOf e < sizeOf instances := List.sizeOf_lt_of_mem h
    simp only [range.sizeOf_spec]
    omega
  | value | select => exact absurd h List.not_mem_nil

namespace Tree

variable {typed : Prop} {t t' t'' : Tree} {range : NodeId} {place start count : Nat}
  {template : Definition} {new : List NodeId}

/-! ## Copies -/

/-- The node below `p` is as new nodes of its definition are, and so are all nodes below it: there
is one for each child of the definition, or for each instance that a repeat starts with. -/
inductive Copies (t : Tree) : Definition → NodeId → NodeId → Prop where
  | node {d : Definition} {p id : NodeId} {ids : List NodeId} :
    t.get? id = some { Node.fresh d (some p) with children := ids } →
    ids.length = d.offspring.length →
    (∀ (i : Nat) (c : NodeId) (e : Definition), ids[i]? = some c → d.offspring[i]? = some e →
      Copies t e id c) →
    Copies t d p id

/-- Nodes that have been stored for definitions are copies of these. -/
theorem copies_of_stored {a a' : Arena Node} {tops : List NodeId} {ds : List Definition}
    (hgrown : Arena.Grown False a a' (some range) tops ds) (hstocked : Arena.Stocked a a')
    (hget : ∀ x, a.get? x = none → t.get? x = a'.get? x) {d : Definition} {p x : NodeId} {n : Node}
    (hnone : a.get? x = none) (hn : a'.get? x = some n) (hd : n.definition = d)
    (hp : n.parent = some p) : t.Copies d p x := by
  induction hsize : sizeOf d using Nat.strongRecOn generalizing d p x n with
  | ind size ih =>
    subst hd hsize
    have hchildren := hstocked x n hnone hn
    have hlength : n.children.length = n.definition.offspring.length := by
      simpa using congrArg List.length hchildren
    have hself : n = { Node.fresh n.definition (some p) with children := n.children } := by
      obtain ⟨definition, parent, children, content, status⟩ := n
      have hcontent : content = .initial definition := hgrown.content hnone hn
      have hstatus : status = { items := definition.items } := hgrown.status hnone hn
      obtain rfl : parent = some p := hp
      rw [hcontent, hstatus]
      rfl
    refine .node (((hget x hnone).trans hn).trans (congrArg some hself)) hlength ?_
    intro i c e hc he
    obtain ⟨hcnone, k, hk, hkp⟩ := (hgrown.placed hnone hn).down c (List.mem_of_getElem? hc)
    have hke : a'.definition? c = some e := by
      have hat := congrArg (·[i]?) hchildren
      simp only [List.getElem?_map, hc, he, Option.map_some] at hat
      exact Option.some.inj hat
    have hdefinition : k.definition = e := by
      rw [Arena.definition?, hk] at hke
      exact Option.some.inj hke
    exact ih _ (Definition.sizeOf_offspring (List.mem_of_getElem? he)) hcnone hk hdefinition hkp rfl

/-! ## Additions and removals -/

/-- A node has in `t'` the definition, the parent and the children that it has in `t`. -/
structure Untouched (t t' : Tree) (x : NodeId) : Prop where
  definition : t'.definition? x = t.definition? x
  parent : t'.parent x = t.parent x
  children : t'.children x = t.children x

/-- In `t'` new nodes stand behind the first `place` children of `range`. All that is new stands
below them. -/
structure Inserts (t t' : Tree) (range : NodeId) (place : Nat) (new : List NodeId) : Prop where
  listed : t'.children range
    = (t.children range).take place ++ new ++ (t.children range).drop place
  fresh : ∀ y ∈ new, ∀ x ∈ t'.subtree y, t.contains x = false
  live : ∀ x, t'.contains x ↔ t.contains x ∨ ∃ y ∈ new, x ∈ t'.subtree y
  placed : t'.definition? range = t.definition? range ∧ t'.parent range = t.parent range
  others : ∀ x, t.contains x → x ≠ range → t.Untouched t' x

/-- In `t'` there are `count` children of `range` less behind the first `start`. What stood below
them is gone, and nothing else. -/
structure Removes (t t' : Tree) (range : NodeId) (start count : Nat) : Prop where
  listed : t'.children range
    = (t.children range).take start ++ (t.children range).drop (start + count)
  live : ∀ x, t'.contains x ↔
    t.contains x ∧ ∀ y ∈ ((t.children range).drop start).take count, x ∉ t.subtree y
  placed : t'.definition? range = t.definition? range ∧ t'.parent range = t.parent range
  others : ∀ x, t'.contains x → x ≠ range → t.Untouched t' x

theorem Untouched.of_sameFrame {x : NodeId} (h : t.Untouched t' x) (hsame : t'.SameFrame t'') :
    t.Untouched t'' x where
  definition := (hsame.definition?_eq x).trans h.definition
  parent := (hsame.parent_eq x).trans h.parent
  children := (hsame.children_eq x).trans h.children

theorem Inserts.of_sameFrame (h : t.Inserts t' range place new) (hsame : t'.SameFrame t'') :
    t.Inserts t'' range place new where
  listed := (hsame.children_eq range).trans h.listed
  fresh y hy x hx := h.fresh y hy x (hsame.subtree_eq y ▸ hx)
  live x := by
    simp only [hsame.contains_eq, hsame.subtree_eq]
    exact h.live x
  placed := ⟨(hsame.definition?_eq range).trans h.placed.1, (hsame.parent_eq range).trans h.placed.2⟩
  others x hx hne := (h.others x hx hne).of_sameFrame hsame

theorem Removes.of_sameFrame (h : t.Removes t' range start count) (hsame : t'.SameFrame t'') :
    t.Removes t'' range start count where
  listed := (hsame.children_eq range).trans h.listed
  live x := by
    rw [hsame.contains_eq]
    exact h.live x
  placed := ⟨(hsame.definition?_eq range).trans h.placed.1, (hsame.parent_eq range).trans h.placed.2⟩
  others x hx hne := by
    rw [hsame.contains_eq] at hx
    exact (h.others x hx hne).of_sameFrame hsame

/-! ## What the changes of a range do -/

/-- The roots of new instances. -/
def created (t : Tree) (range : NodeId) (count : Nat) (template : Definition) : List NodeId :=
  (Arena.plantAll range t.arena (List.replicate count template)).1

theorem length_created (ha : t.arena.Sound) :
    (t.created range count template).length = count := by
  have hgrown := Arena.grown_below range ha (List.replicate count template)
  exact hgrown.tops_new.length_eq.trans List.length_replicate

theorem nodup_created (ha : t.arena.Sound) : (t.created range count template).Nodup :=
  (Arena.grown_below range ha (List.replicate count template)).distinct

/-- New instances are copies of their template. -/
theorem copies_created (ha : t.arena.Sound) (hrange : ∃ r, t.get? range = some r) {y : NodeId}
    (hy : y ∈ t.created range count template) :
    (t.insertInstances range place count template).Copies template range y := by
  have hgrown := Arena.grown_below range ha (List.replicate count template)
  have hstocked := Arena.stocked_plantAll range ha (List.replicate count template)
  obtain ⟨d, hd, hnone, n, hn, hdefinition, hp⟩ := hgrown.exists_top hy
  obtain rfl := List.eq_of_mem_replicate hd
  refine copies_of_stored hgrown hstocked (fun x hx => ?_) hnone hn hdefinition hp
  rw [get?_insertInstances, if_neg]
  rintro rfl
  obtain ⟨r, hr⟩ := hrange
  cases hx.symm.trans hr

/-- What stands below a new node is new. -/
theorem not_live_of_depth (hc : t.Connected)
    (hparent : ∀ x, t.contains x → t'.parent x = t.parent x) {y x : NodeId} {depth : Nat}
    (hy : t.contains y = false) (hdepth : t'.links.AtDepth y depth x) : t.contains x = false := by
  induction depth generalizing x with
  | zero =>
    obtain rfl : x = y := hdepth
    exact hy
  | succ depth ih =>
    obtain ⟨p, hp, hdepth⟩ := hdepth
    have hp : t'.parent x = some p := hp
    cases hx : t.contains x with
    | false => rfl
    | true =>
      obtain ⟨m, hm⟩ := hc.get?_parent ((hparent x hx).symm.trans hp)
      exact nomatch (ih hdepth).symm.trans (Arena.contains_iff.mpr ⟨m, hm⟩)

section

variable {r : Node} (ha : t.arena.Sound)

include ha

theorem contains_insertInstances (range : NodeId) (place count : Nat) (template : Definition)
    {x : NodeId} (hx : t.contains x) :
    (t.insertInstances range place count template).contains x := by
  obtain ⟨n, hn⟩ := Arena.contains_iff.mp hx
  obtain ⟨children, hkept, _⟩ := kept_insertInstances ha hn range place count template
  exact Arena.contains_iff.mpr ⟨_, hkept⟩

theorem parent_insertInstances {x : NodeId} (hx : t.contains x) :
    (t.insertInstances range place count template).parent x = t.parent x := by
  obtain ⟨n, hn⟩ := Arena.contains_iff.mp hx
  obtain ⟨children, hkept, _⟩ := kept_insertInstances ha hn range place count template
  rw [parent_of_get? hkept, parent_of_get? hn]

theorem untouched_insertInstances {x : NodeId} (hx : t.contains x) (hne : x ≠ range) :
    t.Untouched (t.insertInstances range place count template) x := by
  obtain ⟨n, hn⟩ := Arena.contains_iff.mp hx
  obtain ⟨children, hkept, hsame⟩ := kept_insertInstances ha hn range place count template
  refine ⟨definition?_insertInstances ha hn range place count template,
    parent_insertInstances ha hx, ?_⟩
  rw [children_of_get? hkept, children_of_get? hn, hsame hne]

variable (hr : t.get? range = some r)

include hr

/-- Planting changes nothing about the range; its children are set afterwards. -/
theorem get?_inserted (x : NodeId) : (t.insertInstances range place count template).get? x
    = if x = range then
        some { r with children := r.children.take place ++ t.created range count template ++
          r.children.drop place }
      else (Arena.plantAll range t.arena (List.replicate count template)).2.get? x := by
  rw [get?_insertInstances, (Arena.grown_below range ha (List.replicate count template)).kept hr]
  rfl

theorem children_insertInstances : (t.insertInstances range place count template).children range
    = (t.children range).take place ++ t.created range count template ++
      (t.children range).drop place := by
  rw [children_of_get? ((get?_inserted ha hr range).trans (if_pos rfl)), children_of_get? hr]

theorem new_of_mem_created {y : NodeId} (hy : y ∈ t.created range count template) :
    t.contains y = false ∧
      ∃ n, (t.insertInstances range place count template).get? y = some n := by
  have hgrown := Arena.grown_below range ha (List.replicate count template)
  obtain ⟨_, _, hnone, n, hn, _⟩ := hgrown.exists_top hy
  have hne : y ≠ range := by
    rintro rfl
    cases hnone.symm.trans hr
  refine ⟨?_, n, ((get?_inserted ha hr y).trans (if_neg hne)).trans hn⟩
  simp [contains, Arena.contains, hnone]

/-- A node that has not been there stands below the root of a new instance. -/
theorem exists_created (hafter : (t.insertInstances range place count template).Connected)
    {x : NodeId} {n : Node} (hnone : t.get? x = none)
    (hn : (t.insertInstances range place count template).get? x = some n) :
    ∃ y ∈ t.created range count template,
      x ∈ (t.insertInstances range place count template).subtree y := by
  have hgrown := Arena.grown_below range ha (List.replicate count template)
  have hne : x ≠ range := by
    rintro rfl
    cases hnone.symm.trans hr
  have hplanted := ((get?_inserted ha hr x).trans (if_neg hne)).symm.trans hn
  obtain ⟨y, hy, hangs⟩ := (hgrown.placed hnone hplanted).hangs
  refine ⟨y, hy, (hafter.mem_subtree_iff (new_of_mem_created ha hr hy).2).mpr (atDepth_of_hangs ?_)⟩
  -- the way up leads over planted nodes, which keep their parents when the range gets its children
  refine hangs.mono fun {z m} hm => ?_
  by_cases hz : z = range
  · obtain rfl : r = m := Option.some.inj ((hgrown.kept hr).symm.trans (hz ▸ hm))
    exact ⟨_, (get?_inserted ha hr z).trans (if_pos hz), rfl⟩
  · exact ⟨m, ((get?_inserted ha hr z).trans (if_neg hz)).trans hm, rfl⟩

end

theorem inserts_insertInstances (h : t.Sound typed) (hrange : ∃ r, t.get? range = some r)
    (hafter : (t.insertInstances range place count template).Connected) :
    t.Inserts (t.insertInstances range place count template) range place
      (t.created range count template) := by
  have ha := h.arena
  obtain ⟨r, hr⟩ := hrange
  have hlive : t.contains range := Arena.contains_iff.mpr ⟨r, hr⟩
  refine
    { listed := children_insertInstances ha hr
      fresh := fun y hy x hx => ?_
      live := fun x => ⟨fun hx => ?_, ?_⟩
      placed := ⟨definition?_insertInstances ha hr range place count template,
        parent_insertInstances ha hlive⟩
      others := fun x hx hne => untouched_insertInstances ha hx hne }
  · obtain ⟨hnew, hn⟩ := new_of_mem_created ha hr hy
    obtain ⟨depth, hdepth⟩ := (hafter.mem_subtree_iff hn).mp hx
    exact not_live_of_depth h.connected (fun x => parent_insertInstances ha) hnew hdepth
  · obtain ⟨n, hn⟩ := Arena.contains_iff.mp hx
    cases hold : t.get? x with
    | some m => exact .inl (Arena.contains_iff.mpr ⟨m, hold⟩)
    | none => exact .inr (exists_created ha hr hafter hold hn)
  · rintro (hx | ⟨y, hy, hx⟩)
    · exact contains_insertInstances ha range place count template hx
    · obtain ⟨_, hn⟩ := new_of_mem_created ha hr hy
      obtain ⟨depth, hdepth⟩ := (hafter.mem_subtree_iff hn).mp hx
      exact Arena.contains_iff.mpr (live_of_depth hdepth hn)

theorem Connected.not_mem_removed (hc : t.Connected) (range : NodeId) (start count : Nat) :
    range ∉ (t.removeInstances range start count).1 := by
  rw [hc.mem_removed_iff]
  rintro ⟨i, hi, k, hdepth⟩
  have hparent := hc.linked.mp (List.mem_of_mem_drop (List.mem_of_mem_take hi))
  have hstep : t.links.AtDepth range 1 i := ⟨range, hparent, rfl⟩
  have hcycle := hstep.trans hdepth
  rw [Nat.add_comm] at hcycle
  exact hc.not_below_self (hc.get?_parent hparent) hcycle

theorem contains_removeInstances {x : NodeId} :
    (t.removeInstances range start count).2.contains x ↔
      t.contains x ∧ x ∉ (t.removeInstances range start count).1 := by
  have hcontains (t : Tree) : t.contains x = (t.get? x).isSome := rfl
  rw [hcontains, hcontains, get?_removeInstances]
  by_cases hx : x ∈ (t.removeInstances range start count).1
  · simp [hx]
  · simp [hx]

theorem parent_removeInstances {x : NodeId} (hx : x ∉ (t.removeInstances range start count).1) :
    (t.removeInstances range start count).2.parent x = t.parent x := by
  rw [parent, parent, get?_removeInstances, if_neg hx]
  cases t.get? x with
  | none => rfl
  | some n =>
    simp only [Option.map_some, Option.bind_some]
    split <;> rfl

theorem children_removeInstances {x : NodeId} (hx : x ∉ (t.removeInstances range start count).1) :
    (t.removeInstances range start count).2.children x
      = if x = range then (t.children range).take start ++ (t.children range).drop (start + count)
        else t.children x := by
  cases hn : t.get? x with
  | none =>
    have hnone : t.children x = [] := by simp [children, hn]
    simp only [children, get?_removeInstances, if_neg hx, hn]
    split
    next heq => simp [← heq, hn]
    next => rfl
  | some n =>
    have hget := (get?_removeInstances range start count x).trans (if_neg hx)
    rw [hn] at hget
    rw [children_of_get? hget]
    split
    · rfl
    · rw [children_of_get? hn]

theorem removes_removeInstances (hc : t.Connected) :
    t.Removes (t.removeInstances range start count).2 range start count := by
  have hrange := hc.not_mem_removed range start count
  have hremoved (x : NodeId) : x ∉ (t.removeInstances range start count).1 ↔
      ∀ y ∈ ((t.children range).drop start).take count, x ∉ t.subtree y := by
    simp [removeInstances]
  refine ⟨?_, fun x => ?_, ⟨definition?_removeInstances hrange, parent_removeInstances hrange⟩,
    fun x hx hne => ?_⟩
  · exact (children_removeInstances hrange).trans (if_pos rfl)
  · exact contains_removeInstances.trans (and_congr_right fun _ => hremoved x)
  · have hx := (contains_removeInstances.mp hx).2
    exact ⟨definition?_removeInstances hx, parent_removeInstances hx,
      (children_removeInstances hx).trans (if_neg hne)⟩

end Tree

end ReactiveForm
