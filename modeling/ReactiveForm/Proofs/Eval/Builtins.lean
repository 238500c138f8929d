import ReactiveForm.Proofs.Eval.Calls
import ReactiveForm.Proofs.Eval.Steady

/-!
# The built-in functions in two trees with the same frame

All built-in functions but those of the clock give the same value wherever the trees agree on what
they have read.
-/

set_option autoImplicit false

namespace ReactiveForm

open Reading

/-- Covered arguments are given a covered value, the same in both trees. -/
def Body.Faithful (t t' : Tree) (body : Body ViewNode) : Prop :=
  ∀ c c' : Call ViewNode, c.Paired t t' c' → ∀ args,
    Echoes (t.AgreeBelow t') (∀ v ∈ args, v.Covered t t') (body c args) (body c' args)
      (Value.Covered t t')

namespace Builtin

variable {t t' : Tree}

/-- A function that makes an atom of its arguments and looks at nothing else. -/
theorem faithful_atom (f : List (Value ViewNode) → Atom) :
    Body.Faithful t t' fun _ args => pure (.atom (f args)) :=
  fun _ _ _ _ => .pure fun _ => ⟨rfl, trivial⟩

theorem faithful_pure (f : List (Value ViewNode) → Value ViewNode)
    (hf : ∀ args, (∀ v ∈ args, v.Covered t t') → (f args).Covered t t') :
    Body.Faithful t t' fun _ args => pure (f args) :=
  fun _ _ _ args => .pure fun hargs => ⟨rfl, hf args hargs⟩

theorem toNodes_covered {v : Value ViewNode} (hv : v.Covered t t') {xs : List ViewNode}
    (hxs : v.toNodes = .ok xs) : ∀ x ∈ xs, t.Shows x ∧ t.AgreeBelow t' x := by
  obtain rfl := Value.eq_nodes hxs
  exact hv

/-! ## Conditions and nodes -/

theorem faithful_choose : Body.Faithful t t' choose := by
  apply faithful_pure
  intro args hargs
  have hget (i : Nat) : ((args[i]?).getD (.nodes [])).Covered t t' := by
    cases hv : args[i]? with
    | none => exact fun _ hx => absurd hx List.not_mem_nil
    | some v => exact hargs v (List.mem_of_getElem? hv)
  split
  · exact hget 1
  · exact hget 2

theorem faithful_last : Body.Faithful t t' last :=
  fun _ _ hc _ => .pure fun _ => ⟨by rw [hc.size], trivial⟩

theorem toNodes_echoes {H : Prop} (v : Value ViewNode) :
    Echoes (t.AgreeBelow t') H (Reading.ofExcept v.toNodes) (Reading.ofExcept v.toNodes)
      fun _ => True :=
  .ofExcept fun _ => ⟨rfl, fun _ _ => trivial⟩

theorem faithful_count : Body.Faithful t t' count :=
  fun _ _ _ _ => (toNodes_echoes _).bind fun _ => .pure fun _ => ⟨rfl, trivial⟩

theorem faithful_current : Body.Faithful t t' current := by
  intro c c' hc args
  refine (Echoes.note fun _ => by rw [hc.current]).bind fun _ => .pure ?_
  rintro ⟨_, ha⟩
  refine ⟨by rw [hc.current], ?_⟩
  intro x hx
  obtain rfl := List.mem_singleton.mp hx
  exact ⟨hc.shows_current, ha _ (List.mem_singleton_self _)⟩

theorem subject_echoes {H : Prop} {c c' : Call ViewNode} (hc : c.Paired t t' c')
    (args : List (Value ViewNode)) :
    Echoes (t.AgreeBelow t') H (subject c args) (subject c' args) fun _ => True := by
  match args with
  | [] => exact .pure fun _ => ⟨by rw [hc.node], trivial⟩
  | v :: _ => exact (toNodes_echoes v).bind fun _ => .pure fun _ => ⟨rfl, trivial⟩

section

variable (hw : t.WellFormed) (h : t.SameFrame t')

include h

include hw in
/-- The place of a node among its namesakes depends on the node alone, and on the leaf that a text
belongs to. -/
theorem placeAmongNamesakes_eq {x : ViewNode} (hx : t.Shows x) (ha : t.AgreeBelow t' x) :
    placeAmongNamesakes t'.document.toHostTree x
      = placeAmongNamesakes t.document.toHostTree x := by
  have hname : t'.document.name = t.document.name := h.viewName_eq
  simp only [placeAmongNamesakes, Tree.document_parent, Tree.document_children, h.viewParent_eq,
    hname]
  cases hp : t.viewParent x with
  | none => rfl
  | some p =>
    have hchildren : t'.viewChildren p = t.viewChildren p := by
      rcases h.viewChildren_eq_or p with heq | ⟨id, rfl, hl, _⟩
      · exact heq
      · obtain rfl := hw.eq_text_of_viewParent hl hx hp
        exact h.viewChildren_eq ha
    simp only [hchildren]

include hw in
theorem faithful_position : Body.Faithful t t' position := by
  intro c c' hc args
  match args with
  | [] => exact .pure fun _ => ⟨by rw [hc.position], trivial⟩
  | v :: vs =>
    refine (Echoes.ofExcept fun hargs => ⟨rfl, fun xs hxs =>
      toNodes_covered (hargs v List.mem_cons_self) hxs⟩).bind fun xs => ?_
    match xs with
    | [] => exact .pure fun _ => ⟨rfl, trivial⟩
    | x :: _ =>
      refine .pure ?_
      rintro ⟨_, hxs⟩
      obtain ⟨hshows, hagree⟩ := hxs x List.mem_cons_self
      refine ⟨?_, trivial⟩
      rw [hc.document, hc.document', placeAmongNamesakes_eq hw h hshows hagree]

theorem nameText_eq {c c' : Call ViewNode} (hc : c.Paired t t' c') (x : Option ViewNode) :
    nameText c' x = nameText c x := by
  have hname : t'.document.name = t.document.name := h.viewName_eq
  rw [nameText, nameText, hc.document, hc.document', hname]

theorem faithful_name : Body.Faithful t t' name :=
  fun _ _ hc args => (subject_echoes hc args).bind fun x =>
    .pure fun _ => ⟨by rw [nameText_eq h hc x], trivial⟩

theorem faithful_localName : Body.Faithful t t' localName :=
  fun _ _ hc args => (subject_echoes hc args).bind fun x =>
    .pure fun _ => ⟨by simp only [nameText_eq h hc x], trivial⟩

/-! ## Texts and numbers -/

theorem textOrContext_echoes {H : Prop} {c c' : Call ViewNode} (hc : c.Paired t t' c')
    (args : List (Value ViewNode)) :
    Echoes (t.AgreeBelow t') H (textOrContext c args) (textOrContext c' args) fun _ => True := by
  match args with
  | [] =>
    simp only [textOrContext, hc.node]
    exact hc.textOf h _
  | _ :: _ => exact .pure fun _ => ⟨rfl, trivial⟩

theorem faithful_string : Body.Faithful t t' string := by
  intro c c' hc args
  match args with
  | [] =>
    simp only [string, hc.node]
    exact (hc.textOf h _).bind fun _ => .pure fun _ => ⟨rfl, trivial⟩
  | v :: _ => exact (hc.valueText h v).bind fun _ => .pure fun _ => ⟨rfl, trivial⟩

theorem faithful_stringLength : Body.Faithful t t' stringLength :=
  fun _ _ hc args => (textOrContext_echoes h hc args).bind fun _ => .pure fun _ => ⟨rfl, trivial⟩

theorem faithful_normalizeSpace : Body.Faithful t t' normalizeSpace :=
  fun _ _ hc args => (textOrContext_echoes h hc args).bind fun _ => .pure fun _ => ⟨rfl, trivial⟩

theorem faithful_join : Body.Faithful t t' join := by
  intro c c' hc args
  match args with
  | [] => exact .pure fun _ => ⟨rfl, trivial⟩
  | v :: vs =>
    refine (hc.valueText h v).bind fun _ => ?_
    exact (hc.allTexts h vs).bind fun _ => .pure fun _ => ⟨rfl, trivial⟩

theorem faithful_number : Body.Faithful t t' number := by
  intro c c' hc args
  match args with
  | [] =>
    simp only [number, hc.node]
    exact (hc.textOf h _).bind fun _ => .pure fun _ => ⟨rfl, trivial⟩
  | v :: _ => exact (hc.valueNumber h v).bind fun _ => .pure fun _ => ⟨rfl, trivial⟩

theorem faithful_sum : Body.Faithful t t' sum :=
  fun _ _ hc _ => (toNodes_echoes _).bind fun _ =>
    (hc.numbers h _).bind fun _ => .pure fun _ => ⟨rfl, trivial⟩

theorem faithful_min : Body.Faithful t t' min :=
  fun _ _ hc args => (hc.allNumbers h args).bind fun _ => .pure fun _ => ⟨rfl, trivial⟩

theorem faithful_max : Body.Faithful t t' max :=
  fun _ _ hc args => (hc.allNumbers h args).bind fun _ => .pure fun _ => ⟨rfl, trivial⟩

end

theorem faithful_regex : Body.Faithful t t' regex := by
  intro c c' hc args
  simp only [regex]
  split
  · split
    · exact .pure fun _ => ⟨rfl, trivial⟩
    · exact .fail _
  · exact .fail _

/-! ## The table -/

/-- The functions of an expression that does not ask for the time. -/
def IsTimeless (name : String) : Prop :=
  name ≠ "today" ∧ name ≠ "now"

/-- All timeless entries of a table are faithful. -/
def AllFaithful (t t' : Tree) (entries : List (String × Function ViewNode)) : Prop :=
  ∀ e ∈ entries, IsTimeless e.1 → e.2.body.Faithful t t'

theorem allFaithful_nil : AllFaithful t t' [] :=
  fun _ he => absurd he List.not_mem_nil

theorem allFaithful_entry {name : String} {least : Nat} {most : Option Nat}
    {parameters : List (Option ValueType)} {body : Body ViewNode}
    {es : List (String × Function ViewNode)} :
    AllFaithful t t' (entry name least most parameters body :: es) ↔
      (IsTimeless name → body.Faithful t t') ∧ AllFaithful t t' es := by
  simp only [AllFaithful, List.forall_mem_cons, entry]

theorem allFaithful_append {es fs : List (String × Function ViewNode)} :
    AllFaithful t t' (es ++ fs) ↔ AllFaithful t t' es ∧ AllFaithful t t' fs := by
  simp only [AllFaithful, List.forall_mem_append]

theorem allFaithful_conditions : AllFaithful t t' conditions := by
  simp only [conditions, allFaithful_entry]
  refine ⟨fun _ => faithful_atom _, fun _ => faithful_atom _, fun _ => faithful_atom _,
    fun _ => faithful_atom _, fun _ => faithful_atom _, fun _ => faithful_choose,
    allFaithful_nil⟩

theorem allFaithful_mathFunctions : AllFaithful t t' mathFunctions := by
  simp only [mathFunctions, allFaithful_entry]
  refine ⟨?_, ?_, ?_, ?_, ?_, ?_, ?_, ?_, ?_, ?_, ?_, ?_, ?_, ?_, allFaithful_nil⟩
  all_goals exact fun _ => faithful_atom _

theorem allFaithful_selectionFunctions : AllFaithful t t' selectionFunctions := by
  simp only [selectionFunctions, allFaithful_entry]
  refine ⟨?_, ?_, ?_, allFaithful_nil⟩
  all_goals exact fun _ => faithful_atom _

theorem allFaithful_clockFunctions : AllFaithful t t' clockFunctions := by
  simp only [clockFunctions, allFaithful_entry]
  exact ⟨fun htime => absurd rfl htime.1, fun htime => absurd rfl htime.2, allFaithful_nil⟩

variable (hw : t.WellFormed) (h : t.SameFrame t')

include h

include hw in
theorem allFaithful_nodeFunctions : AllFaithful t t' nodeFunctions := by
  simp only [nodeFunctions, allFaithful_entry]
  exact ⟨fun _ => faithful_last, fun _ => faithful_position hw h, fun _ => faithful_count,
    fun _ => faithful_localName h, fun _ => faithful_name h, fun _ => faithful_current,
    allFaithful_nil⟩

theorem allFaithful_textFunctions : AllFaithful t t' textFunctions := by
  simp only [textFunctions, allFaithful_entry]
  exact ⟨fun _ => faithful_string h, fun _ => faithful_atom _, fun _ => faithful_atom _,
    fun _ => faithful_atom _, fun _ => faithful_atom _, fun _ => faithful_atom _,
    fun _ => faithful_atom _, fun _ => faithful_atom _, fun _ => faithful_stringLength h,
    fun _ => faithful_normalizeSpace h, fun _ => faithful_atom _, fun _ => faithful_join h,
    fun _ => faithful_atom _, fun _ => faithful_regex, allFaithful_nil⟩

theorem allFaithful_numberFunctions : AllFaithful t t' numberFunctions := by
  simp only [numberFunctions, allFaithful_entry]
  exact ⟨fun _ => faithful_number h, fun _ => faithful_sum h, fun _ => faithful_atom _,
    fun _ => faithful_atom _, fun _ => faithful_atom _, fun _ => faithful_atom _,
    fun _ => faithful_atom _, fun _ => faithful_min h, fun _ => faithful_max h, allFaithful_nil⟩

include hw in
theorem allFaithful_builtins : AllFaithful t t' Library.builtins.entries := by
  simp only [Library.builtins, allFaithful_append]
  exact ⟨⟨⟨⟨⟨⟨allFaithful_conditions, allFaithful_nodeFunctions hw h⟩,
    allFaithful_textFunctions h⟩, allFaithful_numberFunctions h⟩, allFaithful_mathFunctions⟩,
    allFaithful_selectionFunctions⟩, allFaithful_clockFunctions⟩

end Builtin

/-- The function that a timeless name stands for is faithful. -/
theorem Library.faithful_of_resolve {t t' : Tree} (hw : t.WellFormed) (h : t.SameFrame t')
    {name : String} {count : Nat} {f : Function ViewNode} (htime : Builtin.IsTimeless name)
    (hf : Library.builtins.resolve name count = .ok f) : f.body.Faithful t t' :=
  Builtin.allFaithful_builtins hw h _ (mem_of_resolve hf) htime

end ReactiveForm
