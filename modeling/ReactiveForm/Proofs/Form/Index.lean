import ReactiveForm.Proofs.Eval.Confined
import ReactiveForm.Proofs.Form.Identity
import ReactiveForm.Proofs.Form.Rules
import ReactiveForm.Proofs.Schedule.Index
import ReactiveForm.Proofs.Tree.Edits

/-!
# The reverse index of a form

In every form that can be reached, the outputs entered for a live node are those that have read it.
Outputs read live nodes only, so that an entry for a removed node can never come back.
-/

set_option autoImplicit false

namespace ReactiveForm

open Reading (Confined)

namespace Tree

variable {t : Tree}

/-- The node of the document belongs to a live node. -/
def Live (t : Tree) (x : ViewNode) : Prop := t.contains (t.target x)

theorem Connected.live_document (hc : t.Connected) : t.Live .document := by
  obtain ⟨n, hn, _⟩ := hc.root_live
  exact contains_iff.mpr ⟨n, hn⟩

theorem contains_of_mem_children (hc : t.Connected) {p c : NodeId} (h : c ∈ t.children p) :
    t.contains c := by
  obtain ⟨n, hn, _⟩ := get?_of_parent (hc.linked.mp h)
  exact contains_iff.mpr ⟨n, hn⟩

theorem Connected.live_parent (hc : t.Connected) {x p : ViewNode} (hx : t.Live x)
    (hp : t.viewParent x = some p) : t.Live p := by
  cases x with
  | document => cases hp
  | text id =>
    obtain rfl : ViewNode.element id = p := Option.some.inj hp
    exact hx
  | element id =>
    simp only [viewParent] at hp
    split at hp
    · obtain rfl := Option.some.inj hp
      exact hc.live_document
    · obtain ⟨q, hq, rfl⟩ := Option.map_eq_some_iff.mp hp
      -- `q` stands right above the node, or above the range that the node is an instance of
      unfold outerNode at hq
      split at hq
      next => cases hq
      next r hr =>
        split at hq
        · exact contains_iff.mpr (hc.get?_parent hq)
        · obtain rfl := Option.some.inj hq
          exact contains_iff.mpr (hc.get?_parent hr)

theorem Connected.live_child (hc : t.Connected) {x y : ViewNode} (hx : t.Live x)
    (hy : y ∈ t.viewChildren x) : t.Live y := by
  cases x with
  | document =>
    obtain rfl := List.mem_singleton.mp hy
    exact hc.live_document
  | text id => exact absurd hy List.not_mem_nil
  | element id =>
    simp only [viewChildren] at hy
    split at hy
    · split at hy
      · exact absurd hy List.not_mem_nil
      · obtain rfl := List.mem_singleton.mp hy
        exact hx
    · obtain ⟨c, hinner, rfl⟩ := List.mem_map.mp hy
      obtain ⟨d, hd, hspread⟩ := List.mem_flatMap.mp hinner
      split at hspread
      · exact contains_of_mem_children hc hspread
      · obtain rfl := List.mem_singleton.mp hspread
        exact contains_of_mem_children hc hd

/-- From a live node, the links of the document lead to live nodes. -/
theorem Connected.closedOn_live (hc : t.Connected) : t.document.ClosedOn t.Live where
  parent := hc.live_parent
  attributes _ hy := absurd hy List.not_mem_nil
  children := hc.live_child
  root _ := hc.live_document

theorem Connected.spent_of_removed (hc : t.Connected) {range : NodeId} {start count : Nat}
    {x : NodeId} (hx : x ∈ (t.removeInstances range start count).1) :
    (t.removeInstances range start count).2.arena.Spent x := by
  have hlive : t.contains x := by
    obtain ⟨i, hi, k, hdepth⟩ := (hc.mem_removed_iff range start count x).mp hx
    have hchild := List.mem_of_mem_drop (List.mem_of_mem_take hi)
    exact contains_iff.mpr
      (live_of_depth hdepth (contains_iff.mp (contains_of_mem_children hc hchild)))
  refine ((t.ages_removeInstances range start count).contains_or_spent hlive).resolve_left ?_
  exact fun hkept => (contains_removeInstances.mp hkept).2 hx

end Tree

/-! ## What outputs read -/

namespace Logic

variable {l : Logic} {t : Tree} (hc : t.Connected) (hlibrary : l.library.Confined)

include hc hlibrary

theorem confined_value (e : Expr) {x : ViewNode} (hx : t.Live x) (place : Nat × Nat) :
    Confined t.Live (l.value t e x place) (Value.Within t.Live) :=
  have hwithin : (l.environment t x place).Within t.Live := ⟨hc.closedOn_live, hx, hlibrary⟩
  Environment.stays hwithin e _ hx

theorem confined_itemsAt (rule : ItemRule) (size position : Nat) {xs : List ViewNode}
    (hxs : ∀ x ∈ xs, t.Live x) :
    Confined t.Live (l.itemsAt t rule size position xs) fun _ => True := by
  induction xs generalizing position with
  | nil => exact .pure trivial
  | cons x xs ih =>
    obtain ⟨hx, hxs⟩ := List.forall_mem_cons.mp hxs
    exact .after (confined_value hc hlibrary _ hx _) fun _ =>
      .after (confined_value hc hlibrary _ hx _) fun _ => .after (ih _ hxs) fun _ => .pure trivial

theorem confined_result (rules : Rules) {o : Output} (ho : t.contains o.node)
    (place : Nat × Nat) : Confined t.Live (l.result t rules o place) fun _ => True := by
  have hnode : t.Live (.element o.node) := ho
  unfold result
  split
  · split
    · exact .fail _
    next rule _ =>
      refine .after (P := fun _ => True) ?_ fun _ => .pure trivial
      refine (confined_value hc hlibrary _ hnode _).bind fun v hv => ?_
      refine Confined.bind (P := fun xs => ∀ x ∈ xs, t.Live x)
        (.ofExcept fun _ hxs => hv.toNodes hxs) fun xs hxs => ?_
      exact .after (confined_itemsAt hc hlibrary rule _ _ hxs) fun _ => .pure trivial
  · split
    · exact .fail _
    · refine .after (confined_value hc hlibrary _ hnode _) fun _ => ?_
      split <;> exact .pure trivial

/-- An output of a live node reads live nodes. -/
theorem contains_of_mem_reads {o : Output} (ho : t.contains o.node) :
    ∀ x ∈ (l.outcome t o).reads, t.contains x := by
  intro x hx
  obtain ⟨y, hy, rfl⟩ := List.mem_map.mp (List.mem_eraseDups.mp hx)
  cases hrules : l.rules.rulesAt t o.node with
  | none =>
    simp only [hrules] at hy
    exact absurd hy List.not_mem_nil
  | some rules =>
    simp only [hrules] at hy
    exact (confined_result hc hlibrary rules ho _ _ Reading.readsIn_empty).1.getD y hy

end Logic

/-! ## Functions of the host -/

namespace Library

variable {N : Type} [DecidableEq N] [Ord N] {l l' : Library N}

/-- The functions that count as built in are those of the table. -/
def Standard (l : Library N) : Prop :=
  ∀ e ∈ l.entries, e.2.builtin → e ∈ (builtins : Library N).entries

/-- The functions that the host has registered are confined. -/
def HostConfined (l : Library N) : Prop :=
  ∀ e ∈ l.entries, e.2.builtin = false → e.2.body.Confined

theorem Standard.confined (h : l.Standard) (hhost : l.HostConfined) : l.Confined := by
  intro e he
  cases hbuiltin : e.2.builtin with
  | true => exact confined_builtins e (h e he hbuiltin)
  | false => exact hhost e he hbuiltin

theorem entries_of_register {name : String} {parameterTags : List String} {resultTag : String}
    {body : Body N} (h : l.register name parameterTags resultTag body = .ok l') :
    ∃ e : String × Function N, e.2.builtin = false ∧ e.2.body = body ∧
      l'.entries = l.entries ++ [e] := by
  unfold register at h
  dsimp only at h
  split at h
  · exact nomatch h
  · split at h
    · exact nomatch h
    · unfold registerTyped at h
      split at h
      · exact nomatch h
      · obtain rfl := Except.ok.inj h
        exact ⟨_, rfl, rfl, rfl⟩

theorem Standard.register {name : String} {parameterTags : List String} {resultTag : String}
    {body : Body N} (h : l.Standard)
    (hl' : l.register name parameterTags resultTag body = .ok l') : l'.Standard := by
  obtain ⟨e, hhost, _, hentries⟩ := entries_of_register hl'
  rw [Standard, hentries]
  refine List.forall_mem_append.mpr ⟨h, List.forall_mem_singleton.mpr fun hbuiltin => ?_⟩
  exact nomatch hhost.symm.trans hbuiltin

theorem HostConfined.of_register {name : String} {parameterTags : List String}
    {resultTag : String} {body : Body N} (h : l'.HostConfined)
    (hl' : l.register name parameterTags resultTag body = .ok l') : l.HostConfined := by
  obtain ⟨_, _, _, hentries⟩ := entries_of_register hl'
  intro e he
  exact h e (hentries ▸ List.mem_append_left _ he)

theorem HostConfined.register {name : String} {parameterTags : List String} {resultTag : String}
    {body : Body N} (h : l.HostConfined) (hbody : body.Confined)
    (hl' : l.register name parameterTags resultTag body = .ok l') : l'.HostConfined := by
  obtain ⟨e, _, rfl, hentries⟩ := entries_of_register hl'
  rw [HostConfined, hentries]
  exact List.forall_mem_append.mpr ⟨h, List.forall_mem_singleton.mpr fun _ => hbody⟩

theorem hostConfined_builtins : (builtins : Library N).HostConfined :=
  fun e he _ => confined_builtins e he

end Library

/-! ## From form to form -/

namespace Form

variable {P : Definition → Prop} {f g : Form} {r : Request} {op : Operation}

/-- The entries are the reads the other way round, but for reads of nodes that have been removed. The
nodes with entries are live if the functions of the host are confined. -/
def Indexed (f : Form) : Prop :=
  f.schedule.Indexed f.tree.arena.Spent fun x => f.logic.library.HostConfined → f.contains x

theorem Indexed.marked (h : f.Indexed) : f.marked.Indexed :=
  Schedule.Indexed.mark h _

theorem Indexed.begins (h : f.Indexed) (hready : f.Ready P) (hbegins : Begins f r g) :
    g.Indexed := by
  have hages := hbegins.ages
  have hcoherent : f.start.tree.Coherent := hready.sound.toCoherent
  cases hbegins with
  | @write id content _ hfits =>
    have hwrites : Pass.Writes f.logic.rules f.start
        (f.wrote id (f.tree.rewrite id content)).start := Pass.writes_wrote hcoherent hfits id
    have hindexed := Pass.indexed_of_writes (p := f.start) h hwrites
    refine hindexed.imp (fun x hspent => hspent.ages hages) fun x hkey hhost => ?_
    exact (hwrites.frame.contains_eq x).trans (hkey hhost)
  | @insert range template place count =>
    refine Indexed.marked (Schedule.Indexed.imp h (fun x hspent => hspent.ages hages) ?_)
    exact fun x hkey hhost =>
      Tree.contains_insertInstances hready.sound.arena range place count template (hkey hhost)
  | remove range place count =>
    -- an entry for a removed node goes, and so do the outputs of the node; its slot is spent
    refine Indexed.marked (Schedule.Indexed.forget h (fun x hspent => hspent.ages hages)
      (fun x hx => hready.sound.connected.spent_of_removed hx) ?_)
    exact fun x hkey hkept hhost => Tree.contains_removeInstances.mpr ⟨hkey hhost, hkept⟩
  | recompute => exact h.marked

theorem Indexed.recalculate (h : f.Indexed) (hready : f.Ready P)
    (hlibrary : f.logic.library.Standard) : f.recalculate.Indexed := by
  have hcoherent : f.start.tree.Coherent := hready.sound.toCoherent
  have hrun : f.start.Follows (f.start.run f.logic.rules f.logic.outcome) :=
    Pass.follows_runUpTo f.logic.outcome _ hcoherent
  have hreads : ∀ t, f.start.tree.SameFrame t → t.Coherent → ∀ o, t.contains o.node →
      ∀ x ∈ (f.logic.outcome t o).reads, f.logic.library.HostConfined → f.contains x := by
    intro t hframe hc o ho x hx hhost
    have hlive := Logic.contains_of_mem_reads hc.connected (hlibrary.confined hhost) ho x hx
    exact (hframe.contains_eq x).symm.trans hlive
  have hindexed : (f.start.run f.logic.rules f.logic.outcome).schedule.Indexed f.tree.arena.Spent
      fun x => f.logic.library.HostConfined → f.contains x :=
    Pass.indexed_runUpTo _ hcoherent h hreads
  refine Schedule.Indexed.imp hindexed (fun x hspent => hspent.ages (.of_sameSlots hrun.slots)) ?_
  exact fun x hkey hhost => (hrun.frame.contains_eq x).trans (hkey hhost)

theorem Indexed.started (h : f.Indexed) (hready : f.Ready P) (hlibrary : f.logic.library.Standard)
    (hstarted : f.started op = some g) : g.Indexed ∧ g.logic.library.Standard := by
  cases op with
  | request r =>
    have hbegins := begins_of_begun (begun_of_started hstarted)
    refine ⟨h.begins hready hbegins, ?_⟩
    rw [hbegins.definition.2.1]
    exact hlibrary
  | register name parameterTags resultTag body =>
    obtain ⟨library, hregister, rfl⟩ := register_of_started hstarted
    refine ⟨Indexed.marked (Schedule.Indexed.imp h (fun _ hspent => hspent) ?_),
      hlibrary.register hregister⟩
    exact fun x hkey hhost => hkey (Library.HostConfined.of_register hhost hregister)
  | evaluate | resolve => cases hstarted

theorem Reachable.indexed (h : f.Reachable P) : f.Indexed ∧ f.logic.library.Standard := by
  induction h with
  | @load definition config now f hroot hparts hload =>
    obtain ⟨rules, _, rfl⟩ := exists_of_load hload
    have hindexed : (opened definition config now rules).Indexed := Schedule.indexed_ofLimit _
    have hlibrary : (opened definition config now rules).logic.library.Standard := fun _ he _ => he
    have hready : (opened definition config now rules).Ready P :=
      ready_opened config now rules hroot hparts
    exact ⟨hindexed.marked.recalculate hready.marked hlibrary, hlibrary⟩
  | @operate f op hreachable hoffers ih =>
    have hready := hreachable.ready.1
    rcases f.carryOut_cases op with ⟨g, hstarted, heq⟩ | ⟨_, cache, heq⟩
    · obtain ⟨hindexed, hlibrary⟩ := ih.1.started hready ih.2 hstarted
      rw [heq]
      exact ⟨hindexed.recalculate (hready.started hoffers hstarted) hlibrary, hlibrary⟩
    · rw [heq]
      exact ih

theorem logic_perform (f : Form) (r : Request) : (f.perform r).logic = f.logic := by
  rw [perform_eq]
  cases hbegun : f.begun r with
  | error e => rfl
  | ok g => exact (begins_of_begun hbegun).definition.2.1

/-- Only a registration adds to the functions of the host. -/
theorem hostConfined_carryOut (h : f.logic.library.HostConfined)
    (hop : ∀ name parameterTags resultTag body,
      op = .register name parameterTags resultTag body → body.Confined) :
    (f.carryOut op).logic.library.HostConfined := by
  cases op with
  | request r =>
    have hlogic : (f.carryOut (.request r)).logic = f.logic := f.logic_perform r
    rwa [hlogic]
  | register name parameterTags resultTag body =>
    have hregister : f.carryOut (.register name parameterTags resultTag body) = _ :=
      f.run_register name parameterTags resultTag body
    rw [hregister]
    split
    next => exact h
    next library hlibrary => exact h.register (hop _ _ _ _ rfl) hlibrary
  -- evaluations only fill the store of expressions
  | evaluate text =>
    obtain ⟨cache, hpeek⟩ := peeks_evaluate text f
    have heq : f.carryOut (.evaluate text) = { f with cache } := hpeek
    rw [heq]
    exact h
  | resolve text =>
    obtain ⟨cache, hpeek⟩ := peeks_resolve text f
    have heq : f.carryOut (.resolve text) = { f with cache } := hpeek
    rw [heq]
    exact h

end Form

/-! ## A read of a removed node -/

/-- The names of the goods in one text, which is wanted while there are any. -/
def Definition.basket : Definition :=
  .root ⟨"/f", "f", {}, none, none⟩ [
    .range ⟨"/f/r", "r", {}, none, none⟩
      (.inst ⟨"/f/r", "r", {}, none, none⟩ [.value ⟨"/f/r/x", "x", {}, none, none⟩ "a"])
      [.inst ⟨"/f/r", "r", {}, none, none⟩ [.value ⟨"/f/r/x", "x", {}, none, none⟩ "a"]],
    .value ⟨"/f/all", "all", { relevant := some "/f/r", calculate := some "/f/r" }, none, none⟩ ""]

def RuleBook.basket : RuleBook :=
  let goods : Expr := .path .root [⟨.child, .name "f", []⟩, ⟨.child, .name "r", []⟩]
  [("/f/all", { expressions := [(.relevant, goods), (.calculate, goods)] }), ("/f/r/x", {}),
    ("/f/r", {}), ("/f", {})]

set_option maxRecDepth 20000 in
theorem RuleBook.ofDefinition_basket : RuleBook.ofDefinition .basket = .ok .basket := by rfl

/-- A function of the host that gives its first argument back. -/
def Body.first : Body ViewNode
  | _, [] => Reading.fail (.failed "no argument")
  | _, v :: _ => pure v

theorem Body.confined_first : Body.first.Confined := by
  intro S c _ args hargs
  cases args with
  | nil => exact .fail _
  | cons v vs => exact .pure (hargs v List.mem_cons_self)

namespace Form

def basket : Form := (opened .basket {} .epoch .basket).marked.recalculate

/-- The form with a function of the host, and after its only instance has been removed. -/
def basketHosted : Form := basket.carryOut (.register "first" ["node-set"] "node-set" .first)

def basketEmptied : Form := basketHosted.carryOut (.request (.removeInstances ⟨1, 0⟩ 0 1))

end Form

end ReactiveForm
