import ReactiveForm.Proofs.Expr.Reference
import ReactiveForm.Proofs.Tree.Mirror

/-!
# References of live nodes

The reference of a node leads to it. It names the elements above the node from the root on, each in
the one before, and an instance by its place in the range. So no two nodes have the same reference,
and a search for it comes to the node.
-/

set_option autoImplicit false

namespace ReactiveForm

/-! ## Steps of a reference -/

namespace Expr.Leg

variable {l m : Leg}

/-- What holds of the characters of names, of brackets and of digits, holds of all characters. -/
theorem forall_mem_text {p : Char → Prop} (hname : ∀ c ∈ l.name.toList, p c) (hopen : p '[')
    (hclose : p ']') (hdigit : ∀ c, c.isDigit = true → p c) : ∀ c ∈ l.text, p c := by
  refine List.forall_mem_append.mpr ⟨hname, ?_⟩
  cases l.place with
  | none => exact List.forall_mem_nil _
  | some k =>
    have hdigits : ∀ c ∈ Nat.toDigits 10 k, p c :=
      fun c hc => hdigit c (Number.forall_isDigit_toDigits k c hc)
    have hend : ∀ c ∈ [']'], p c := List.forall_mem_singleton.mpr hclose
    exact List.forall_mem_cons.mpr ⟨hopen, List.forall_mem_append.mpr ⟨hdigits, hend⟩⟩

theorem slash_not_mem (hl : IsSimpleName l.name.toList) : '/' ∉ l.text := by
  have hname : ∀ c ∈ l.name.toList, c ≠ '/' := by
    rintro _ hc rfl
    exact Definition.slash_not_mem hl hc
  have hdigit (c : Char) (hc : c.isDigit = true) : c ≠ '/' := by
    rintro rfl
    exact absurd hc (by decide)
  intro hmem
  exact forall_mem_text hname (by decide) (by decide) hdigit '/' hmem rfl

theorem isBlank_of_mem_text {c : Char} (hl : Description.isName l.name = true) (hc : c ∈ l.text) :
    Text.isBlank c = false := by
  have hname : ∀ c ∈ l.name.toList, Text.isBlank c = false :=
    fun c hc => Description.isBlank_of_isNameChar (Description.forall_isNameChar hl c hc)
  have hdigit (c : Char) (hc : c.isDigit = true) : Text.isBlank c = false :=
    Text.isBlank_eq_false (by decide +kernel) hc
  exact forall_mem_text hname (by decide) (by decide) hdigit c hc

theorem bracket_inj {j k : Nat}
    (h : Nat.toDigits 10 j ++ [']'] = Nat.toDigits 10 k ++ [']']) : j = k := by
  have hdigits := congrArg Number.digitsValue (List.append_cancel_right h)
  rwa [Number.digitsValue_toDigits, Number.digitsValue_toDigits] at hdigits

/-- The text tells the name and the place. -/
theorem text_inj (hl : IsSimpleName l.name.toList) (hm : IsSimpleName m.name.toList)
    (h : l.text = m.text) : l = m := by
  have hbracket {k : Nat} : '[' ∉ Nat.toDigits 10 k ++ [']'] := by
    have hdigits : '[' ∉ Nat.toDigits 10 k :=
      fun hmem => absurd (Number.forall_isDigit_toDigits k '[' hmem) (by decide)
    simp [hdigits]
  obtain ⟨name, place⟩ := l
  obtain ⟨name', place'⟩ := m
  -- no name holds a bracket, so the place is told from the name
  cases place with
  | none =>
    cases place' with
    | none =>
      simp only [text, bracket, List.append_nil, String.toList_inj] at h
      rw [h]
    | some k =>
      simp only [text, bracket, List.append_nil] at h
      refine absurd ?_ (Definition.bracket_not_mem hl)
      rw [h]
      exact List.mem_append_right _ List.mem_cons_self
  | some j =>
    cases place' with
    | none =>
      simp only [text, bracket, List.append_nil] at h
      refine absurd ?_ (Definition.bracket_not_mem hm)
      rw [← h]
      exact List.mem_append_right _ List.mem_cons_self
    | some k =>
      simp only [text, bracket] at h
      obtain ⟨hname, hdigits⟩ := eq_of_append_cons hbracket hbracket h
      rw [String.toList_inj.mp hname, bracket_inj hdigits]

theorem textAll_snoc (ls : List Leg) (l : Leg) :
    textAll (ls ++ [l]) = textAll ls ++ '/' :: l.text := by
  rw [textAll_append, textAll_cons]
  simp [textAll]

/-- The text of a path tells its steps. -/
theorem textAll_inj {ls ms : List Leg} (hls : ∀ l ∈ ls, IsSimpleName l.name.toList)
    (hms : ∀ l ∈ ms, IsSimpleName l.name.toList) (h : textAll ls = textAll ms) : ls = ms := by
  have hne (ls : List Leg) (l : Leg) : [] ≠ textAll (ls ++ [l]) := by
    rw [textAll_snoc]
    exact (List.append_ne_nil_of_right_ne_nil _ (List.cons_ne_nil _ _)).symm
  induction ls using List.reverseRecOn generalizing ms with
  | nil =>
    rcases List.eq_nil_or_concat' ms with rfl | ⟨ms, m, rfl⟩
    · rfl
    · exact absurd h (hne ms m)
  | append_singleton ls l ih =>
    rcases List.eq_nil_or_concat' ms with rfl | ⟨ms, m, rfl⟩
    · exact absurd h.symm (hne ls l)
    · obtain ⟨hls, hl⟩ := List.forall_mem_append.mp hls
      obtain ⟨hms, hm⟩ := List.forall_mem_append.mp hms
      have hl := hl l List.mem_cons_self
      have hm := hm m List.mem_cons_self
      rw [textAll_snoc, textAll_snoc] at h
      obtain ⟨hinit, hlast⟩ := eq_of_append_cons (slash_not_mem hl) (slash_not_mem hm) h
      rw [ih hls hms hinit, text_inj hl hm hlast]

end Expr.Leg

/-- Where all parts but one are empty, that one is the whole. -/
theorem flatMap_eq_of_unique {α β : Type} {f : α → List β} {xs : List α} {x : α} (hxs : xs.Nodup)
    (hx : x ∈ xs) (hne : ∀ y ∈ xs, y ≠ x → f y = []) : xs.flatMap f = f x := by
  obtain ⟨before, after, rfl⟩ := List.append_of_mem hx
  have hmiddle := List.nodup_middle.mp hxs
  have hnot := (List.nodup_cons.mp hmiddle).1
  have hempty (ys : List α) (hys : ys ⊆ before ++ after) : ys.flatMap f = [] := by
    refine List.flatMap_eq_nil_iff.mpr fun y hy => hne y ?_ fun heq => hnot (heq ▸ hys hy)
    exact List.mem_append.mpr ((List.mem_append.mp (hys hy)).imp_right (List.mem_cons_of_mem x))
  rw [List.flatMap_append, List.flatMap_cons, hempty _ (List.subset_append_left _ _),
    hempty _ (List.subset_append_right _ _), List.nil_append, List.append_nil]

namespace Tree

open ReactiveForm.Expr (Leg)

variable {t : Tree}

/-- What a node adds to references. -/
def leg (t : Tree) (id : NodeId) : Leg where
  name := (t.name? id).getD ""
  place := ((t.parent id).filter t.isRange).map fun range => ((t.placeIn range id).map (·.1)).getD 0

/-- The elements above a node, from the root on, and the node itself. -/
def route (t : Tree) (id : NodeId) : List NodeId :=
  (id :: (t.ancestors id).filter fun p => !t.isRange p).reverse

def legs (t : Tree) (id : NodeId) : List Leg := (t.route id).map t.leg

theorem legs_ne_nil (t : Tree) (id : NodeId) : t.legs id ≠ [] := by
  simp [legs, route]

theorem leg_name {id : NodeId} {n : Node} (hn : t.get? id = some n) :
    (t.leg id).name = n.definition.name := by
  rw [leg, name?_of_get? hn]
  rfl

theorem name?_of_leg {id : NodeId} (hid : ∃ n, t.get? id = some n) :
    t.name? id = some (t.leg id).name := by
  obtain ⟨n, hn⟩ := hid
  rw [leg_name hn, name?_of_get? hn]

theorem toList_segment {id : NodeId} {n : Node} (hn : t.get? id = some n) :
    (t.segment id).toList = '/' :: (t.leg id).text := by
  rw [Leg.text, leg_name hn]
  unfold segment
  simp only [hn, leg, parent_of_get? hn]
  cases n.parent.filter t.isRange with
  | none => simp [Leg.bracket]
  | some range => simp [Leg.bracket]

theorem leg_place_of_isRange {id range : NodeId} (hp : t.parent id = some range)
    (hrange : t.isRange range) (hmem : id ∈ t.children range) :
    (t.leg id).place = some ((t.children range).idxOf id + 1) := by
  simp [leg, hp, hrange, placeIn, idxOf?_of_mem hmem]

theorem leg_place_of_not_isRange {id p : NodeId} (hp : t.parent id = some p)
    (hrange : t.isRange p = false) : (t.leg id).place = none := by
  simp [leg, hp, hrange]

/-- The node is the root, or it is below an element that is reached. -/
inductive Reached (t : Tree) : NodeId → Prop where
  | root : Reached t t.root
  | under {id q : NodeId} : t.outerNode id = some q → Reached t q → Reached t id

namespace WellFormed

variable (h : t.WellFormed)

include h

/-- All live nodes are reached from the root. -/
theorem reached {id : NodeId} (hid : ∃ n, t.get? id = some n) : t.Reached id := by
  obtain ⟨n, hn⟩ := hid
  obtain ⟨depth, hdepth⟩ := h.rooted hn
  clear hn
  induction depth using Nat.strongRecOn generalizing id with
  | ind depth ih =>
    cases depth with
    | zero =>
      obtain rfl := hdepth
      exact .root
    | succ depth =>
      obtain ⟨p, hp, hdepth⟩ := hdepth
      have houter := outerNode_of_parent hp
      by_cases hr : t.isRange p
      · -- the range above an instance is passed over
        rw [if_pos hr] at houter
        cases depth with
        | zero =>
          obtain rfl := hdepth
          exact nomatch hr.symm.trans h.isRange_root
        | succ depth =>
          obtain ⟨q, hq, hdepth⟩ := hdepth
          exact .under (houter.trans hq) (ih depth (by omega) hdepth)
      · rw [if_neg hr] at houter
        exact .under houter (ih depth (by omega) hdepth)

theorem live_of_mem_route {id x : NodeId} (hid : ∃ n, t.get? id = some n)
    (hx : x ∈ t.route id) : ∃ n, t.get? x = some n := by
  refine h.connected.live_of_mem_ancestors ?_ hid
  rcases List.mem_cons.mp (List.mem_reverse.mp hx) with rfl | hx
  · exact List.mem_cons_self
  · exact List.mem_cons_of_mem _ (List.mem_filter.mp hx).1

theorem legs_root : t.legs t.root = [t.leg t.root] := by
  rw [legs, route, h.connected.ancestors_root]
  rfl

theorem legs_of_outerNode {id q : NodeId} (hq : t.outerNode id = some q) :
    t.legs id = t.legs q ++ [t.leg id] := by
  have habove : (t.ancestors id).filter (fun p => !t.isRange p)
      = q :: (t.ancestors q).filter (fun p => !t.isRange p) := by
    obtain ⟨p, hp, ⟨hrange, rfl⟩ | ⟨hrange, hparent, hplain⟩⟩ := h.outerNode_cases hq
    · rw [h.connected.ancestors_of_parent hp]
      exact List.filter_cons_of_pos (by simp [hrange])
    · rw [h.connected.ancestors_of_parent hp, h.connected.ancestors_of_parent hparent,
        List.filter_cons_of_neg (by simp [hrange])]
      exact List.filter_cons_of_pos (by simp [hplain])
  rw [legs, legs, route, habove, List.reverse_cons, List.map_append]
  rfl

theorem reference_eq {id : NodeId} (hid : ∃ n, t.get? id = some n) :
    t.reference id = String.ofList (Leg.textAll (t.legs id)) := by
  have hroute : t.reference id = String.join ((t.route id).map t.segment) := rfl
  rw [hroute, String.join_eq, List.map_map, ← List.flatMap_def, legs, Leg.textAll, List.flatMap_map]
  congr 1
  refine List.flatMap_congr fun x hx => ?_
  obtain ⟨n, hn⟩ := h.live_of_mem_route hid hx
  exact toList_segment hn

theorem isName_legs (hnamed : t.Throughout Definition.Named) {id : NodeId}
    (hid : ∃ n, t.get? id = some n) : ∀ l ∈ t.legs id, Description.isName l.name = true := by
  intro l hl
  obtain ⟨x, hx, rfl⟩ := List.mem_map.mp hl
  obtain ⟨n, hn⟩ := h.live_of_mem_route hid hx
  rw [leg_name hn]
  exact (hnamed x n hn _ n.definition.self_mem_parts).name

theorem trimmed_reference (hnamed : t.Throughout Definition.Named) {id : NodeId}
    (hid : ∃ n, t.get? id = some n) : Text.trimmed (t.reference id) = t.reference id := by
  refine Text.trimmed_eq_self fun c hc => ?_
  rw [h.reference_eq hid, String.toList_ofList] at hc
  obtain ⟨l, hl, hc⟩ := List.mem_flatMap.mp hc
  rcases List.mem_cons.mp hc with rfl | hc
  · decide
  · exact Leg.isBlank_of_mem_text (h.isName_legs hnamed hid l hl) hc

end WellFormed

/-- The tree is well-formed and in the image of its definitions; names are in order, and no
definition names two of its children alike. -/
structure Addressed (t : Tree) : Prop where
  wellFormed : t.WellFormed
  mirrors : t.Mirrors
  named : t.Throughout Definition.Named
  distinct : t.Throughout fun d => (d.children.map (·.name)).Nodup

namespace Addressed

variable (h : t.Addressed)

include h

theorem isName_legs {id : NodeId} (hid : ∃ n, t.get? id = some n) :
    ∀ l ∈ t.legs id, Description.isName l.name = true :=
  h.wellFormed.isName_legs h.named hid

theorem isSimpleName_legs {id : NodeId} (hid : ∃ n, t.get? id = some n) :
    ∀ l ∈ t.legs id, Expr.IsSimpleName l.name.toList :=
  fun l hl => Description.isSimpleName (h.isName_legs hid l hl)

theorem trimmed_reference {id : NodeId} (hid : ∃ n, t.get? id = some n) :
    Text.trimmed (t.reference id) = t.reference id :=
  h.wellFormed.trimmed_reference h.named hid

/-! ## References are told apart -/

/-- A node below an element is one of its children, or it is in a range that is; the range has the
name of the node. -/
theorem exists_stem {id q : NodeId} (hq : t.outerNode id = some q) : t.isRange q = false ∧
    ∃ c ∈ t.children q, t.name? c = some (t.leg id).name ∧
      (c = id ∧ (t.leg id).place = none ∨
        t.isRange c ∧ id ∈ t.children c ∧
          (t.leg id).place = some ((t.children c).idxOf id + 1)) := by
  have hw := h.wellFormed
  obtain ⟨p, hp, hcases⟩ := hw.outerNode_cases hq
  obtain ⟨n, hn, _⟩ := get?_of_parent hp
  have hname := name?_of_leg ⟨n, hn⟩
  have hmem := hw.linked.mpr hp
  rcases hcases with ⟨hrange, rfl⟩ | ⟨hrange, hparent, hplain⟩
  · exact ⟨hrange, id, hmem, hname, .inl ⟨rfl, leg_place_of_not_isRange hp hrange⟩⟩
  · have hsame := h.mirrors.name?_instance hrange hmem
    exact ⟨hplain, p, hw.linked.mpr hparent, hsame.symm.trans hname,
      .inr ⟨hrange, hmem, leg_place_of_isRange hp hrange hmem⟩⟩

/-- What a node adds to references tells it from the others below the same element. -/
theorem eq_of_leg {x y q : NodeId} (hx : t.outerNode x = some q) (hy : t.outerNode y = some q)
    (hleg : t.leg x = t.leg y) : x = y := by
  obtain ⟨hplain, c, hc, hname, hcx⟩ := h.exists_stem hx
  obtain ⟨_, c', hc', hname', hcy⟩ := h.exists_stem hy
  rw [hleg] at hname hcx
  obtain rfl := h.mirrors.eq_of_name h.distinct hplain hc hc' (hname.trans hname'.symm)
  rcases hcx with ⟨rfl, hnone⟩ | ⟨_, hmem, hplace⟩
  · rcases hcy with ⟨rfl, _⟩ | ⟨_, _, hplace⟩
    · rfl
    · exact nomatch hnone.symm.trans hplace
  · rcases hcy with ⟨_, hnone⟩ | ⟨_, _, hplace'⟩
    · exact nomatch hnone.symm.trans hplace
    · have hplaces := Option.some.inj (hplace.symm.trans hplace')
      exact (List.idxOf_inj hmem).mp (Nat.add_right_cancel hplaces)

/-- The steps of a reference lead to one node. -/
theorem eq_of_legs {x y : NodeId} (hx : t.Reached x) (hy : t.Reached y)
    (heq : t.legs x = t.legs y) : x = y := by
  have hw := h.wellFormed
  -- the steps to a node below an element are more than one
  have hlonger {y q : NodeId} (hq : t.outerNode y = some q) : t.legs t.root ≠ t.legs y := by
    intro heq
    rw [hw.legs_root, hw.legs_of_outerNode hq, ← List.nil_append [t.leg t.root]] at heq
    exact t.legs_ne_nil q (List.append_inj' heq rfl).1.symm
  induction hx generalizing y with
  | root =>
    cases hy with
    | root => rfl
    | under hq _ => exact absurd heq (hlonger hq)
  | under hq _ ih =>
    cases hy with
    | root => exact absurd heq.symm (hlonger hq)
    | under hq' hreached =>
      have hboth := heq
      rw [hw.legs_of_outerNode hq, hw.legs_of_outerNode hq'] at hboth
      obtain ⟨habove, hleg⟩ := List.append_inj' hboth rfl
      obtain rfl := ih hreached habove
      exact h.eq_of_leg hq hq' (List.cons.inj hleg).1

/-- No two live nodes have the same reference. -/
theorem eq_of_reference {x y : NodeId} (hx : ∃ n, t.get? x = some n)
    (hy : ∃ n, t.get? y = some n) (heq : t.reference x = t.reference y) : x = y := by
  rw [h.wellFormed.reference_eq hx, h.wellFormed.reference_eq hy] at heq
  refine h.eq_of_legs (h.wellFormed.reached hx) (h.wellFormed.reached hy) ?_
  exact Leg.textAll_inj (h.isSimpleName_legs hx) (h.isSimpleName_legs hy) (String.ofList_injective heq)

/-- The node with the reference of a live node is this one. -/
theorem find?_reference {id : NodeId} (hid : ∃ n, t.get? id = some n) :
    t.find? (t.reference id) = some id := by
  have hmem : id ∈ t.nodes := h.wellFormed.connected.mem_nodes_iff.mpr hid
  cases hfind : t.find? (t.reference id) with
  | none =>
    have hno := List.find?_eq_none.mp hfind id hmem
    simp at hno
  | some x =>
    have hx := h.wellFormed.connected.mem_nodes_iff.mp (List.mem_of_find?_eq_some hfind)
    have heq : t.reference x = t.reference id := by simpa using List.find?_some hfind
    rw [h.eq_of_reference hx hid heq]

/-! ## Namesakes -/

/-- The nodes below an element that are named like a child of it are what stands there for the
child: the instances of a range, or the child itself. -/
theorem namesakes {q c : NodeId} (hq : t.isRange q = false) (hc : c ∈ t.children q) :
    (t.innerNodes q).filter (fun x => t.name? x == t.name? c)
      = if t.isRange c then t.children c else [c] := by
  have hunfolded (d x : NodeId) (hx : x ∈ if t.isRange d then t.children d else [d]) :
      t.name? x = t.name? d := by
    split at hx
    next hrange => exact h.mirrors.name?_instance hrange hx
    next => rw [List.mem_singleton.mp hx]
  rw [innerNodes, List.filter_flatMap]
  refine (flatMap_eq_of_unique (h.wellFormed.distinct q) hc fun d hd hne => ?_).trans ?_
  · refine List.filter_eq_nil_iff.mpr fun x hx => ?_
    rw [hunfolded d x hx, beq_iff_eq]
    exact fun hname => hne (h.mirrors.eq_of_name h.distinct hq hd hc hname)
  · refine List.filter_eq_self.mpr fun x hx => ?_
    rw [hunfolded c x hx, beq_iff_eq]

end Addressed

end Tree

end ReactiveForm
