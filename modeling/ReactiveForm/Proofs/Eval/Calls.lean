import ReactiveForm.Compare
import ReactiveForm.Function.Builtin
import ReactiveForm.Proofs.Eval.Echo
import ReactiveForm.Proofs.Tree.Frame

/-!
# Calls in two trees with the same frame

What a function reads of the nodes it is given, it enters into the log. So wherever two trees with
the same frame agree on what a call has read, the call gives the same value in both of them.
-/

set_option autoImplicit false

namespace ReactiveForm

open ReactiveForm.Tree (SameFrame)

/-- The nodes of the value belong to the document, and the two trees agree below them. -/
def Value.Covered (t t' : Tree) : Value ViewNode → Prop
  | .atom _ => True
  | .nodes xs => ∀ x ∈ xs, t.Shows x ∧ t.AgreeBelow t' x

namespace Value

variable {t t' : Tree} (h : t.SameFrame t') {v w : Value ViewNode}

include h

theorem toText_eq (hv : v.Covered t t') :
    v.toText t'.document.toHostTree = v.toText t.document.toHostTree := by
  match v with
  | .nodes [] => rfl
  | .nodes (x :: _) => exact h.text_eq (hv x List.mem_cons_self).2
  | .atom a => rfl

theorem toNumber_eq (hv : v.Covered t t') :
    v.toNumber t'.document.toHostTree = v.toNumber t.document.toHostTree := by
  have htext := toText_eq h hv
  cases v with
  | atom a => rfl
  | nodes xs => simp only [toNumber, htext]

omit h in
theorem any_congr {α : Type} {p q : α → Bool} {xs : List α} (hpq : ∀ x ∈ xs, p x = q x) :
    xs.any p = xs.any q := by
  induction xs with
  | nil => rfl
  | cons x xs ih =>
    rw [List.any_cons, List.any_cons, hpq x List.mem_cons_self,
      ih fun y hy => hpq y (List.mem_cons_of_mem x hy)]

theorem compareNodes_eq (op : Operator) {xs : List ViewNode}
    (hxs : (Value.nodes xs).Covered t t') (b : Atom) :
    compareNodes t'.document.toHostTree op xs b
      = compareNodes t.document.toHostTree op xs b := by
  have htext : ∀ x ∈ xs, t'.document.stringValue x = t.document.stringValue x :=
    fun x hx => h.text_eq (hxs x hx).2
  cases b with
  | boolean b => rfl
  | string s | number x =>
    apply any_congr
    intro x hx
    rw [htext x hx]

theorem compare_eq (op : Operator) (hv : v.Covered t t') (hw : w.Covered t t') :
    v.compare t'.document.toHostTree op w = v.compare t.document.toHostTree op w := by
  cases v with
  | atom a =>
    cases w with
    | atom b => rfl
    | nodes ys => exact compareNodes_eq h op.swapped hw a
  | nodes xs =>
    cases w with
    | atom b => exact compareNodes_eq h op hv b
    | nodes ys =>
      apply any_congr
      intro x hx
      apply any_congr
      intro y hy
      have hxt : t'.document.stringValue x = t.document.stringValue x := h.text_eq (hv x hx).2
      have hyt : t'.document.stringValue y = t.document.stringValue y := h.text_eq (hw y hy).2
      rw [hxt, hyt]

/-- A covered value converts to the same value, which is covered. -/
theorem coerce_eq (hv : v.Covered t t') (type : ValueType) :
    v.coerce t'.document.toHostTree type = v.coerce t.document.toHostTree type ∧
      ∀ w, v.coerce t.document.toHostTree type = .ok w → w.Covered t t' := by
  cases type with
  | string =>
    refine ⟨by simp only [coerce, toText_eq h hv], ?_⟩
    rintro w ⟨⟩
    trivial
  | number =>
    refine ⟨by simp only [coerce, toNumber_eq h hv], ?_⟩
    rintro w ⟨⟩
    trivial
  | boolean =>
    refine ⟨rfl, ?_⟩
    rintro w ⟨⟩
    trivial
  | nodeSet =>
    refine ⟨rfl, ?_⟩
    intro w hw
    cases v with
    | atom a => exact nomatch hw
    | nodes xs =>
      obtain rfl : Value.nodes xs = w := Except.ok.inj hw
      exact hv

end Value

/-- The same call in two trees. The clock may have moved on. -/
structure Call.Paired (t t' : Tree) (c c' : Call ViewNode) : Prop where
  document : c.document = t.document
  document' : c'.document = t'.document
  node : c'.node = c.node
  current : c'.current = c.current
  position : c'.position = c.position
  size : c'.size = c.size
  shows_current : t.Shows c.current

namespace Call.Paired

open Reading

variable {t t' : Tree} (h : t.SameFrame t') {c c' : Call ViewNode} (hc : c.Paired t t' c')
  {H : Prop}

include h hc

theorem stringValue_eq {x : ViewNode} (hx : t.AgreeBelow t' x) :
    c'.document.stringValue x = c.document.stringValue x := by
  rw [hc.document, hc.document']
  exact h.text_eq hx

theorem textOf (x : ViewNode) :
    Echoes (t.AgreeBelow t') H (c.textOf x) (c'.textOf x) fun _ => True := by
  refine (Echoes.note fun _ => rfl).bind fun _ => .pure ?_
  rintro ⟨_, hx⟩
  exact ⟨hc.stringValue_eq h (hx x (List.mem_singleton_self x)), trivial⟩

theorem valueText (v : Value ViewNode) :
    Echoes (t.AgreeBelow t') H (c.valueText v) (c'.valueText v) fun _ => True := by
  match v with
  | .nodes [] => exact .pure fun _ => ⟨rfl, trivial⟩
  | .nodes (x :: _) => exact hc.textOf h x
  | .atom a => exact .pure fun _ => ⟨rfl, trivial⟩

theorem valueNumber (v : Value ViewNode) :
    Echoes (t.AgreeBelow t') H (c.valueNumber v) (c'.valueNumber v) fun _ => True := by
  cases v with
  | atom a => exact .pure fun _ => ⟨rfl, trivial⟩
  | nodes xs => exact (hc.valueText h (.nodes xs)).bind fun _ => .pure fun _ => ⟨rfl, trivial⟩

theorem coerce (v : Value ViewNode) (type : ValueType) :
    Echoes (t.AgreeBelow t') (v.Covered t t')
      (Reading.ofExcept (v.coerce c.document.toHostTree type))
      (Reading.ofExcept (v.coerce c'.document.toHostTree type)) (Value.Covered t t') := by
  rw [hc.document, hc.document']
  exact .ofExcept fun hv => Value.coerce_eq h hv type

theorem convert (v : Value ViewNode) (type : Option ValueType) :
    Echoes (t.AgreeBelow t') (v.Covered t t') (c.convert v type) (c'.convert v type)
      (Value.Covered t t') := by
  match type with
  | none => exact .pure fun hv => ⟨rfl, hv⟩
  | some .string => exact (hc.valueText h v).bind fun _ => .pure fun _ => ⟨rfl, trivial⟩
  | some .number => exact (hc.valueNumber h v).bind fun _ => .pure fun _ => ⟨rfl, trivial⟩
  | some .boolean => exact hc.coerce h v .boolean
  | some .nodeSet => exact hc.coerce h v .nodeSet

theorem convertAll (parameters : List (Option ValueType)) (args : List (Value ViewNode)) :
    Echoes (t.AgreeBelow t') (∀ v ∈ args, v.Covered t t') (c.convertAll parameters args)
      (c'.convertAll parameters args) fun vs => ∀ v ∈ vs, v.Covered t t' := by
  induction args generalizing parameters with
  | nil =>
    simp only [Call.convertAll]
    exact .pure fun _ => ⟨rfl, fun _ hv => absurd hv List.not_mem_nil⟩
  | cons v vs ih =>
    simp only [Call.convertAll]
    refine ((hc.convert h v _).given fun hvs => hvs v List.mem_cons_self).bind fun w => ?_
    refine ((ih _).given ?_).bind fun ws => .pure ?_
    · rintro ⟨hvs, _⟩ u hu
      exact hvs u (List.mem_cons_of_mem v hu)
    · rintro ⟨⟨_, hw⟩, hws⟩
      refine ⟨rfl, ?_⟩
      intro u hu
      rcases List.mem_cons.mp hu with rfl | hu
      · exact hw
      · exact hws u hu

theorem mapM_textOf (xs : List ViewNode) :
    Echoes (t.AgreeBelow t') H (xs.mapM c.textOf) (xs.mapM c'.textOf) fun _ => True :=
  (Echoes.mapM xs fun x _ => hc.textOf h x).imp id fun _ _ _ => trivial

theorem texts (v : Value ViewNode) :
    Echoes (t.AgreeBelow t') H (c.texts v) (c'.texts v) fun _ => True := by
  cases v with
  | atom a => exact .pure fun _ => ⟨rfl, trivial⟩
  | nodes xs => exact hc.mapM_textOf h xs

theorem allTexts (vs : List (Value ViewNode)) :
    Echoes (t.AgreeBelow t') H (c.allTexts vs) (c'.allTexts vs) fun _ => True := by
  induction vs generalizing H with
  | nil => exact .pure fun _ => ⟨rfl, trivial⟩
  | cons v vs ih =>
    refine (hc.texts h v).bind fun _ => ?_
    exact ih.bind fun _ => .pure fun _ => ⟨rfl, trivial⟩

theorem numbers (v : Value ViewNode) :
    Echoes (t.AgreeBelow t') H (c.numbers v) (c'.numbers v) fun _ => True := by
  cases v with
  | atom a => exact .pure fun _ => ⟨rfl, trivial⟩
  | nodes xs => exact (hc.mapM_textOf h xs).bind fun _ => .pure fun _ => ⟨rfl, trivial⟩

theorem allNumbers (vs : List (Value ViewNode)) :
    Echoes (t.AgreeBelow t') H (c.allNumbers vs) (c'.allNumbers vs) fun _ => True := by
  induction vs generalizing H with
  | nil => exact .pure fun _ => ⟨rfl, trivial⟩
  | cons v vs ih =>
    refine (hc.numbers h v).bind fun _ => ?_
    exact ih.bind fun _ => .pure fun _ => ⟨rfl, trivial⟩

end Call.Paired

end ReactiveForm
