import ReactiveForm.Proofs.Form.Idempotence
import ReactiveForm.Proofs.Form.Rules
import ReactiveForm.Proofs.Schedule.Ranking

/-!
# Calculations that settle

In a form that computes nothing but the contents of values, let each calculation rank above all those
together that it reads in the course of the passes. If no rank exceeds the limit, no pass reports a
cycle, and after each pass every calculated value is what its expression comes to on the tree.
-/

set_option autoImplicit false

namespace ReactiveForm

/-- Nothing but contents of values is computed, and where the content of a node with this definition
is calculated, the definition says so. -/
structure Definition.Calculates (book : RuleBook) (d : Definition) : Prop where
  declared : Form.Declared book d
  itemset : d.itemset = none
  binds : ∀ bind ∈ d.bind.expressions, bind.1 = .calculate
  value : d.bind.calculate.isSome → d.type = .value

namespace RuleBook

variable {d : Definition} {book : RuleBook}

theorem calculates_ofDefinition (hbook : ofDefinition d = .ok book)
    (h : ∀ e ∈ d.parts, e.Calculates book) : book.Calculates := by
  intro reference rules hrules kind hkind
  obtain ⟨e, hbinder, _, hspells⟩ := exists_of_ofDefinition hbook hrules
  have he := h e (List.mem_filter.mp hbinder).1
  rw [hspells.kinds_eq, Definition.kinds, he.itemset] at hkind
  obtain ⟨bind, hbind, rfl⟩ : ∃ bind ∈ e.bind.expressions, OutputKind.bind bind.1 = kind := by
    simpa using hkind
  rw [he.binds bind hbind]

end RuleBook

namespace Logic

/-- The outputs whose nodes an output reads, or reads along with a node above them. -/
def feeders (l : Logic) (t : Tree) (q : Output) : List Output :=
  (l.rules.outputs t).filter fun o => (l.outcome t q).reads.any fun z => o.node ∈ t.subtree z

/-- Under plain rules, ranks can be looked over on one tree of a frame. -/
theorem ranked_of_plain {l : Logic} {S : Tree → Prop} {t t' : Tree} {limit : Nat} {rank : Output → Nat}
    (hlibrary : l.library = .builtins) (hplain : l.rules.Plain) (hbook : l.rules.Calculates)
    (hc : t.Connected) (h : t.SameFrame t')
    (hrank : ∀ q ∈ l.rules.outputs t,
      rank q ≤ limit ∧ ((l.feeders t q).map rank).sum < rank q) :
    Pass.Ranked l.rules l.outcome S t' limit rank := by
  have hlisted {q : Output} (hq : q ∈ l.rules.outputsAt t' q.node) : q ∈ l.rules.outputs t := by
    rw [RuleBook.outputsAt_eq h] at hq
    exact (RuleBook.mem_outputs hc).mpr hq
  refine ⟨fun q hq => (hrank q (hlisted hq)).1, fun q hq os hnodup hos => ?_⟩
  -- what an output may read in any tree of the frame, it reads in the one looked over
  have hsub : os ⊆ l.feeders t q := by
    intro o ho
    obtain ⟨hdeclared, s, _, hframe, z, hz, hbelow⟩ := hos o ho
    obtain ⟨id, kind⟩ := q
    obtain rfl : kind = .bind .calculate := hbook.kind_eq hq
    rw [(outcome_plain hlibrary hplain (h.trans hframe) id .calculate).1] at hz
    rw [h.subtree_eq] at hbelow
    exact List.mem_filter.mpr ⟨hlisted hdeclared, List.any_eq_true.mpr ⟨z, hz, by simpa using hbelow⟩⟩
  obtain ⟨xs, hperm, hxs⟩ := hnodup.subperm hsub
  have hsum : (os.map rank).sum ≤ ((l.feeders t q).map rank).sum := by
    rw [← (hperm.map rank).sum_eq]
    exact (hxs.map rank).sum_le_sum fun _ _ => Nat.zero_le _
  exact Nat.lt_of_le_of_lt hsum (hrank q (hlisted hq)).2

end Logic

namespace Form

variable {P : Definition → Prop} {book : RuleBook} {S : Tree → Prop} {f g : Form} {r : Request}

/-- The forms in which the passes after requests start. A request that is refused makes none. -/
def passes (f : Form) : List Request → List Form
  | [] => []
  | r :: rs =>
    match f.begun r with
    | .error _ => f.passes rs
    | .ok g => g :: g.recalculate.passes rs

/-- The tree occurs in one of the passes that start in these forms. -/
def Occurs (starts : List Form) (t : Tree) : Prop :=
  ∃ g ∈ starts, ∃ n, t = (Pass.runUpTo g.logic.rules g.logic.outcome n g.start).tree

/-- The outputs of the form can be ranked within the limit, by what they read in trees of `S`. -/
def Ranks (g : Form) (S : Tree → Prop) : Prop :=
  ∃ rank, Pass.Ranked g.logic.rules g.logic.outcome S g.tree (max g.config.maxEvaluations 1) rank

/-- Where the content of a live node is calculated, it is what the expression comes to on the tree as
it is, if it comes to anything. -/
def Calculated (f : Form) : Prop :=
  ∀ id n, f.tree.get? id = some n → n.definition.type ≠ .range →
    ∀ e text, f.definition.first? n.definition.reference = some e →
      e.bind.expression .calculate = some text → ∃ expr, Expr.read text = .ok expr ∧
        let env := f.logic.environment f.tree (.element id) ((f.tree.place id).getD (1, 1))
        ∀ v, (env.evaluateTracked expr).1 = .ok v →
          n.content = .text (v.toText f.tree.document.toHostTree)

theorem sameFrame_passes (hc : f.tree.Coherent) (hranges : ∀ id, f.tree.isRange id = false)
    (rs : List Request) : ∀ g ∈ f.passes rs,
      f.tree.SameFrame g.tree ∧ g.logic = f.logic ∧ g.config = f.config := by
  induction rs generalizing f with
  | nil => exact nofun
  | cons r rs ih =>
    rw [passes]
    cases hbegun : f.begun r with
    | error e => exact ih hc hranges
    | ok g =>
      have hbegins := begins_of_begun hbegun
      obtain ⟨hframe, hg⟩ := hbegins.sameFrame hc hranges
      obtain ⟨_, hlogic, hconfig⟩ := hbegins.definition
      obtain ⟨hpass, hafter⟩ := sameFrame_recalculate hg
      have hboth := hframe.trans hpass
      refine List.forall_mem_cons.mpr ⟨⟨hframe, hlogic, hconfig⟩, fun g' hg' => ?_⟩
      obtain ⟨hframe', hlogic', hconfig'⟩ :=
        ih hafter (fun id => (hboth.isRange_eq id).trans (hranges id)) g' hg'
      exact ⟨hboth.trans hframe', hlogic'.trans hlogic, hconfig'.trans hconfig⟩

/-! ## From request to request -/

theorem Begins.relevant (h : Begins f r g) (hrelevant : f.tree.Relevant) (ha : f.tree.arena.Sound) :
    g.tree.Relevant := by
  cases h with
  | @write id content => exact Pass.relevant_wrote (p := f.start) hrelevant id content
  | @insert range template place count => exact hrelevant.insertInstances ha range place count template
  | remove range place count => exact hrelevant.removeInstances range place count
  | recompute => exact hrelevant

theorem Begins.backed (h : Begins f r g) (hc : f.tree.Coherent) (hbacked : f.schedule.Backed) :
    g.schedule.Backed := by
  cases h with
  | @write id content _ hfits =>
    have hcoherent : f.start.tree.Coherent := hc
    have hwrites : Pass.Writes f.logic.rules f.start
        (f.wrote id (f.tree.rewrite id content)).start := Pass.writes_wrote hcoherent hfits id
    obtain ⟨outputs, hmarks, _⟩ := hwrites.marks
    have hschedule : (f.wrote id (f.tree.rewrite id content)).schedule = f.schedule.mark outputs :=
      hmarks
    rw [hschedule]
    exact hbacked
  | insert | recompute => exact hbacked
  | remove range place count => exact hbacked.forget _

/-- A form between two requests that is at rest, after a pass without cycles. -/
structure Calm (P : Definition → Prop) (book : RuleBook) (f : Form) : Prop
    extends f.Resting P book true where
  read : RuleBook.ofDefinition f.definition = .ok book
  relevant : f.tree.Relevant
  backed : f.schedule.Backed
  cycles : f.cycles = []

section

variable (hP : ∀ d, P d → Declared book d) (htraceable : book.Traceable)
  (hcalculates : book.Calculates)

include hP htraceable hcalculates

theorem calm_recalculate (hready : g.Ready P) (hrules : g.logic.rules = book)
    (hlibrary : g.logic.library = .builtins) (hread : RuleBook.ofDefinition g.definition = .ok book)
    (hrelevant : g.tree.Relevant) (hbacked : g.schedule.Backed)
    (hconsistent : ∃ t : Tree, t.WellFormed ∧
      g.start.Consistent g.logic.rules g.logic.outcome t)
    (hranks : g.Ranks S)
    (hS : ∀ n, S (Pass.runUpTo g.logic.rules g.logic.outcome n g.start).tree) :
    g.recalculate.Calm P book := by
  subst hrules
  have hread : RuleBook.ofDefinition g.recalculate.definition = .ok g.logic.rules := hread
  have hw : g.tree.WellFormed := hready.wellFormed fun d hd => (hP d hd).1
  have htraces : g.tree.Traces g.logic.outcome := Logic.traces hlibrary htraceable hw
  obtain ⟨rank, hranked⟩ := hranks
  obtain ⟨t, hwt, hstart⟩ := hconsistent
  rw [← hready.limit] at hranked
  have hpaid : g.start.Paid g.logic.rules g.logic.outcome S g.tree :=
    hstart.rebase.paid hrelevant hbacked rfl rfl
  -- the bill that holds before the pass holds after it, and it leaves no room for a cycle
  have hend := hpaid.runUpTo htraces hcalculates hranked (g.start.budget g.logic.rules) hS
  have hcycles : g.recalculate.cycles = [] := hend.cycles
  have hrest : g.recalculate.Resting P g.logic.rules (true && g.recalculate.cycles.isEmpty) :=
    resting_recalculate htraceable hcalculates.divided hready rfl hlibrary fun _ => ⟨t, hwt, hstart⟩
  rw [hcycles] at hrest
  exact ⟨hrest, hread, hend.relevant, hend.backed, hcycles⟩

theorem Calm.performAll (h : f.Calm P book) {rs : List Request} (hoffers : ∀ r ∈ rs, r.Offers P)
    (hranks : ∀ g ∈ f.passes rs, g.Ranks S)
    (hS : ∀ g ∈ f.passes rs, ∀ n,
      S (Pass.runUpTo g.logic.rules g.logic.outcome n g.start).tree) :
    (f.performAll rs).Calm P book := by
  -- the induction is on the requests; a refused one makes no pass
  induction rs generalizing f with
  | nil => exact h
  | cons r rs ih =>
    obtain ⟨hoffer, hoffers⟩ := List.forall_mem_cons.mp hoffers
    have hperform : f.performAll (r :: rs) = (f.perform r).performAll rs := rfl
    rw [hperform, perform_eq]
    rw [passes] at hranks hS
    cases hbegun : f.begun r with
    | error e =>
      rw [hbegun] at hranks hS
      exact ih h hoffers hranks hS
    | ok g =>
      rw [hbegun] at hranks hS
      obtain ⟨hrank, hranks⟩ := List.forall_mem_cons.mp hranks
      obtain ⟨hfirst, hS⟩ := List.forall_mem_cons.mp hS
      have hbegins := begins_of_begun hbegun
      obtain ⟨hready, hlogic⟩ := h.ready.begins hoffer hbegins
      refine ih ?_ hoffers hranks hS
      exact calm_recalculate hP htraceable hcalculates hready (hlogic ▸ h.rules)
        (hlogic ▸ h.library) (hbegins.definition.1 ▸ h.read)
        (hbegins.relevant h.relevant h.ready.sound.arena)
        (hbegins.backed h.ready.sound.toCoherent h.backed)
        (h.consistent hP htraceable hoffer hbegins (by simp)) hrank hfirst

theorem calm_load {d : Definition} {config : Config} {now : Moment} (hroot : d.type = .root)
    (hparts : ∀ e ∈ d.parts, P e) (hread : RuleBook.ofDefinition d = .ok book)
    (hranks : (opened d config now book).marked.Ranks S)
    (hS : ∀ n, S (Pass.runUpTo book (opened d config now book).logic.outcome n
      (opened d config now book).marked.start).tree) :
    (opened d config now book).marked.recalculate.Calm P book := by
  have hready := (ready_opened config now book hroot hparts).marked
  have hw := hready.wellFormed fun d hd => (hP d hd).1
  have hbacked : (opened d config now book).marked.schedule.Backed := by
    rintro x q ⟨_, hmem, _⟩
    exact nomatch hmem
  exact calm_recalculate hP htraceable hcalculates hready rfl rfl hread
    (Tree.relevant_ofDefinition d) hbacked ⟨_, hw, consistent_marked hready⟩ hranks hS

end

/-! ## What is calculated -/

theorem outcome_of_evaluateTracked {l : Logic} {t : Tree} {id : NodeId} {rules : Rules} {expr : Expr}
    {v : Value ViewNode} (hrules : l.rules.rulesAt t id = some rules)
    (hlookup : rules.expressions.lookup .calculate = some expr)
    (hv : ((l.environment t (.element id) ((t.place id).getD (1, 1))).evaluateTracked expr).1 = .ok v) :
    (l.outcome t ⟨id, .bind .calculate⟩).result = .ok (.text (v.toText t.document.toHostTree)) := by
  cases hrun : (l.value t expr (.element id) ((t.place id).getD (1, 1))).run (some .empty) with
  | mk result log =>
    obtain rfl : result = .ok v := (congrArg Prod.fst hrun).symm.trans hv
    simp only [Logic.outcome, hrules, Logic.result, hlookup]
    rw [Reading.run_bind_ok hrun]
    rfl

theorem Calm.calculated (hP : ∀ d, P d → d.Calculates book) (h : f.Calm P book) : f.Calculated := by
  intro id n hn hrange e text hfind htext
  obtain ⟨_, hfirst, _⟩ := RuleBook.entered_of_ofDefinition h.read
  obtain ⟨rules, hget, hspells⟩ := hfirst _ e hfind rfl
  obtain ⟨expr, hlookup, hread⟩ := hspells.lookup htext
  refine ⟨expr, hread, fun v hv => ?_⟩
  have hkind : OutputKind.bind .calculate ∈ rules.kinds :=
    List.mem_append_left _ (List.mem_map_of_mem (mem_of_lookup hlookup))
  have hrules : book.rulesAt f.tree id = some rules := by
    simp [RuleBook.rulesAt, Tree.definition?, hn, hrange, hget]
  have hdeclared : ⟨id, .bind .calculate⟩ ∈ book.outputsAt f.tree id :=
    RuleBook.mem_outputsAt.mpr ⟨rfl, rules, hrules, hkind⟩
  have hcoherent : f.start.tree.Coherent := h.ready.sound.toCoherent
  have hsettled := h.steady rfl ⟨id, .bind .calculate⟩ (h.rules ▸ hdeclared)
    (Pass.isSuppressed_of_relevant h.relevant hcoherent ⟨n, hn⟩)
  obtain ⟨m, hm, hholds⟩ := hsettled.holds
  obtain rfl : n = m := Option.some.inj (hn.symm.trans hm)
  have hresult : (f.logic.outcome f.start.tree ⟨id, .bind .calculate⟩).result
      = .ok (.text (v.toText f.tree.document.toHostTree)) :=
    outcome_of_evaluateTracked (h.rules ▸ hrules) hlookup hv
  rw [hresult] at hholds
  have hwritten : n.writing (v.toText f.tree.document.toHostTree) = n.content := hholds.2
  -- a calculated node is a value, which takes over any text
  have hproper := hP _ (h.ready.proper id n hn _ (Definition.self_mem_parts _))
  have hvalue : n.definition.type = .value :=
    hproper.value (hproper.declared.2 hrange rules hget hkind)
  have hsuits := hcoherent.filled hn
  rw [hvalue] at hsuits
  rw [← hwritten]
  cases hcontent : n.content with
  | text before => simp only [Node.writing, hcontent]
  | inner | selection => simp [Content.suits, hcontent, NodeType.isLeaf] at hsuits

end Form

/-! ## A chain of two calculations -/

/-- The calculation of `c` reads that of `b`, which stands behind it. -/
def Description.relay : Description where
  name := "f"
  children := [{ name := "c", bind := { calculate := some "/f/b" } },
    { name := "b", bind := { calculate := some "/f/a" } }, { name := "a" }]

def Definition.relay : Definition :=
  .root ⟨"/f", "f", {}, none, none⟩ [
    .value ⟨"/f/c", "c", { calculate := some "/f/b" }, none, none⟩ "",
    .value ⟨"/f/b", "b", { calculate := some "/f/a" }, none, none⟩ "",
    .value ⟨"/f/a", "a", {}, none, none⟩ ""]

/-- The expression `/f/x` for a name `x`. -/
def Expr.top (name : String) : Expr :=
  .path .root [⟨.child, .name "f", []⟩, ⟨.child, .name name, []⟩]

def Rules.ofCalculation (e : Expr) : Rules := { expressions := [(.calculate, e)] }

def RuleBook.relay : RuleBook :=
  [("/f/a", {}), ("/f/b", .ofCalculation (.top "a")), ("/f/c", .ofCalculation (.top "b")), ("/f", {})]

set_option maxRecDepth 20000 in
theorem Description.toDefinition_relay : Description.relay.toDefinition = .ok .relay := by rfl

set_option maxRecDepth 20000 in
theorem RuleBook.ofDefinition_relay : RuleBook.ofDefinition .relay = .ok .relay := by rfl

theorem RuleBook.plain_relay : RuleBook.relay.Plain := RuleBook.forall_get? (by decide)

namespace Form

def relay : Form := (opened .relay {} .epoch .relay).marked.recalculate

theorem load_relay : load .relay = .ok relay := load_of_ofDefinition RuleBook.ofDefinition_relay {} .epoch

theorem ranks_relay {S : Tree → Prop} {t : Tree}
    (h : (Tree.ofDefinition .relay).SameFrame t) :
    Pass.Ranked RuleBook.relay relay.logic.outcome S t 16 fun q =>
      if q.node = ⟨1, 0⟩ then 2 else 1 := by
  have hsound : (Tree.ofDefinition .relay).Sound False := Tree.sound_ofDefinition nofun
  have hbook : RuleBook.relay.Calculates := RuleBook.forall_get? (by decide)
  exact Logic.ranked_of_plain (l := relay.logic) rfl RuleBook.plain_relay hbook hsound.connected h
    (by decide +kernel)

end Form

/-! ## A calculation that reads seventeen others -/

def fanNames : List String :=
  ["a", "b", "c", "d", "e", "f", "g", "h", "i", "j", "k", "l", "m", "n", "o", "p", "q"]

/-- The calculation of `y` reads a group behind it, whose values are calculated as well. -/
def Description.fan : Description where
  name := "f"
  children := [
    { name := "y", bind := { calculate := some "/f/g" } },
    { name := "g", children := fanNames.map fun name =>
        { name, bind := { calculate := some "'x'" } } }]

def Definition.fan : Definition :=
  .root ⟨"/f", "f", {}, none, none⟩ [
    .value ⟨"/f/y", "y", { calculate := some "/f/g" }, none, none⟩ "",
    .group ⟨"/f/g", "g", {}, none, none⟩ (fanNames.map fun name =>
      .value ⟨"/f/g/" ++ name, name, { calculate := some "'x'" }, none, none⟩ "")]

def RuleBook.fan : RuleBook :=
  fanNames.reverse.map (fun name => ("/f/g/" ++ name, Rules.ofCalculation (.text "x"))) ++
    [("/f/g", ({} : Rules)), ("/f/y", .ofCalculation (.top "g")), ("/f", {})]

set_option maxRecDepth 20000 in
theorem Description.toDefinition_fan : Description.fan.toDefinition = .ok .fan := by rfl

set_option maxRecDepth 20000 in
theorem RuleBook.ofDefinition_fan : RuleBook.ofDefinition .fan = .ok .fan := by rfl

namespace Form

def fan : Form := (opened .fan {} .epoch .fan).marked.recalculate

theorem load_fan : load .fan = .ok fan := load_of_ofDefinition RuleBook.ofDefinition_fan {} .epoch

theorem cycles_fan : fan.cycles = [⟨⟨⟨1, 0⟩, .bind .calculate⟩, "/f/y", 16⟩] := by decide +kernel

def fanRank (id : NodeId) : Nat := if id = ⟨1, 0⟩ then 1 else 0

/-- In all trees of the frame, `y` ranks above all that it reads. -/
theorem below_fan {t : Tree} (h : (Tree.ofDefinition .fan).SameFrame t) {q : Output}
    (hq : q ∈ RuleBook.fan.outputsAt t q.node) : (fan.logic.outcome t q).result.isOk ∧
      ∀ z ∈ (fan.logic.outcome t q).reads, ∀ x ∈ t.subtree z, t.isLeaf x →
        fanRank x < fanRank q.node := by
  have hsound : (Tree.ofDefinition .fan).Sound False := Tree.sound_ofDefinition nofun
  have hplain : RuleBook.fan.Plain := RuleBook.forall_get? (by decide)
  have hbook : RuleBook.fan.Calculates := RuleBook.forall_get? (by decide)
  -- all trees of the frame read the same, so it is enough to look over the first one
  have hchecked : ∀ q ∈ RuleBook.fan.outputs (Tree.ofDefinition .fan),
      (fan.logic.outcome (Tree.ofDefinition .fan) q).result.isOk ∧
        ∀ z ∈ (fan.logic.outcome (Tree.ofDefinition .fan) q).reads,
          ∀ x ∈ (Tree.ofDefinition .fan).subtree z, (Tree.ofDefinition .fan).isLeaf x →
            fanRank x < fanRank q.node := by
    decide +kernel
  obtain ⟨id, kind⟩ := q
  obtain rfl : kind = .bind .calculate := hbook.kind_eq hq
  rw [RuleBook.outputsAt_eq h] at hq
  obtain ⟨hok, hrank⟩ := hchecked _ ((RuleBook.mem_outputs hsound.connected).mpr hq)
  obtain ⟨hreads, hsuccess⟩ := Logic.outcome_plain (l := fan.logic) rfl hplain h id .calculate
  rw [hreads, hsuccess]
  refine ⟨hok, fun z hz x hx hleaf => ?_⟩
  rw [h.subtree_eq] at hx
  rw [h.isLeaf_eq] at hleaf
  exact hrank z hz x hx hleaf

end Form

end ReactiveForm
