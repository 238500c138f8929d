import ReactiveForm.Proofs.Expr.RoundTrip

/-!
# Reading references

A reference is the text of a path: names behind slashes, and the places of instances in brackets.
It is read as that path from the root whatever the names are, those of axes, operators and node
types included.
-/

set_option autoImplicit false

namespace ReactiveForm

namespace Expr

open Rule

/-- A step of a reference: the name of a node, and the place of an instance. -/
structure Leg where
  name : String
  place : Option Nat

namespace Leg

/-- The text in brackets behind a name. -/
def bracket : Option Nat → List Char
  | none => []
  | some k => '[' :: (Nat.toDigits 10 k ++ [']'])

def text (l : Leg) : List Char := l.name.toList ++ bracket l.place

def step (l : Leg) : Step Expr where
  axis := .child
  test := .name l.name
  predicates := l.place.toList.map fun k => .number (Number.ofDigits (Nat.toDigits 10 k) [])

/-- The text of a path. -/
def textAll (ls : List Leg) : List Char := ls.flatMap fun l => '/' :: l.text

theorem textAll_cons (l : Leg) (ls : List Leg) : textAll (l :: ls) = '/' :: (l.text ++ textAll ls) :=
  rfl

theorem textAll_append (ls ms : List Leg) : textAll (ls ++ ms) = textAll ls ++ textAll ms :=
  List.flatMap_append

end Leg

variable {s t rest : List Char} {c : Char} {l : Leg} {ls : List Leg}

/-! ## Places -/

/-- A number in front of a closing mark. -/
theorem expr_toDigits (n k : Nat) (hrest : Closes rest) :
    (expr (n + 1) (Nat.toDigits 10 k ++ rest)).parsed
      = some (.number (Number.ofDigits (Nat.toDigits 10 k) []), rest) := by
  have hread := Number.unsigned?_toDigits k
  obtain ⟨d, ds, hds⟩ := List.exists_cons_of_ne_nil (Nat.toDigits_ne_nil (n := k) (b := 10))
  have hd : d.isDigit = true := Number.forall_isDigit_toDigits k d (hds ▸ List.mem_cons_self)
  have hne {c : Char} (hc : c.isDigit = false) : d ≠ c := by
    rintro rfl
    exact nomatch hc.symm.trans hd
  have hpadding : Number.isPadding d = false := Number.isPadding_of_isDigit hd
  have hskip : skipBlanks (Nat.toDigits 10 k ++ rest) = Nat.toDigits 10 k ++ rest := by
    rw [hds]
    exact skipBlanks_cons hpadding _
  have hnext {c : Char} (hc : c.isDigit = false) : NotNext c (Nat.toDigits 10 k ++ rest) := by
    refine notNext_of_ne (t := ds ++ rest) ?_ (hne hc)
    rw [hskip, hds, List.cons_append]
  have hends := endsPath_of_closes hrest
  exact level_of_pathExpr (hnext (by decide))
    (pathExpr_of_primary (hnext (by decide)) (primary_number hread hskip hends.name) hends) hrest

theorem repeats_bracket (n : Nat) (place : Option Nat) (hrest : NotNext '[' rest) :
    Repeats (predicate (expr (n + 1))) (Leg.bracket place ++ rest)
      (place.toList.map fun k => .number (Number.ofDigits (Nat.toDigits 10 k) [])) rest := by
  cases place with
  | none => exact .stop (enclosed_of_notNext hrest)
  | some k =>
    have htext : Leg.bracket (some k) ++ rest = '[' :: (Nat.toDigits 10 k ++ ']' :: rest) := by
      simp [Leg.bracket]
    rw [htext]
    have hinside := expr_toDigits n k (closes_cons (c := ']') (by decide) rest)
    have hskip := skipBlanks_cons (c := '[') (by decide) (Nat.toDigits 10 k ++ ']' :: rest)
    have hpredicate := enclosed_of_some hskip hinside (by decide)
    exact .last hpredicate (by simp) (enclosed_of_notNext hrest)

/-! ## Steps -/

/-- Neither a bracket nor what ends a step continues a name. -/
theorem endsTest_bracket (place : Option Nat) (hrest : EndsStep rest) :
    EndsTest (Leg.bracket place ++ rest) := by
  cases place with
  | none => exact ⟨hrest.name, hrest.colon, hrest.parenthesis⟩
  | some k =>
    have hskip (u : List Char) : skipBlanks ('[' :: u) = '[' :: u := skipBlanks_cons (by decide) u
    exact ⟨noneInFront_cons (by decide) _, notNext_of_ne (hskip _) (by decide),
      notNext_of_ne (hskip _) (by decide)⟩

theorem step_leg (n : Nat) (hl : IsSimpleName l.name.toList) (hrest : EndsStep rest) :
    (step (expr (n + 1)) (l.text ++ rest)).parsed = some (l.step, rest) := by
  have htest := endsTest_bracket l.place hrest
  have hskip : skipBlanks (l.text ++ rest) = l.name.toList ++ (Leg.bracket l.place ++ rest) := by
    rw [Leg.text, List.append_assoc]
    exact hl.begins.skipBlanks _
  have hkind := kindTest_of_name hl hskip htest.name htest.parenthesis
  exact step_of_name (.inl hl) hskip htest.name htest.colon hkind
    (repeats_bracket n l.place hrest.bracket)

theorem endsStep_textAll (ls : List Leg) : EndsStep (Leg.textAll ls) := by
  cases ls with
  | nil => exact (endsPath_of_closes (.inl rfl)).toEndsStep
  | cons l ls =>
    rw [Leg.textAll_cons]
    have hskip (u : List Char) : skipBlanks ('/' :: u) = '/' :: u := skipBlanks_cons (by decide) u
    exact ⟨noneInFront_cons (by decide) _, notNext_of_ne (hskip _) (by decide),
      notNext_of_ne (hskip _) (by decide), notNext_of_ne (hskip _) (by decide)⟩

theorem Leg.text_cons (hl : IsSimpleName l.name.toList) :
    ∃ c cs, l.text = c :: cs ∧ isNameStart c = true := by
  obtain ⟨c, cs, hname, hc, -⟩ := hl
  exact ⟨c, cs ++ bracket l.place, by rw [text, hname]; rfl, hc⟩

/-! ## Paths -/

theorem repeats_textAll (n : Nat) (hls : ∀ l ∈ ls, IsSimpleName l.name.toList) :
    Repeats (nextStep (expr (n + 1))) (Leg.textAll ls) (ls.map fun l => [l.step]) [] := by
  induction ls with
  | nil => exact .stop (nextStep_of_notNext (notNext_of_nil rfl))
  | cons l ls ih =>
    obtain ⟨hl, hls⟩ := List.forall_mem_cons.mp hls
    obtain ⟨c, cs, htext, hc⟩ := Leg.text_cons hl
    have hslash : skipBlanks (Leg.textAll (l :: ls)) = '/' :: c :: (cs ++ Leg.textAll ls) := by
      rw [Leg.textAll_cons, htext]
      exact skipBlanks_cons (by decide) _
    have hstep := step_leg n hl (endsStep_textAll ls)
    rw [htext] at hstep
    have hseparator := separator_of_slash hslash (ne_slash_of_isNameStart hc)
    have hnext : (nextStep (expr (n + 1)) (Leg.textAll (l :: ls))).parsed
        = some ([l.step], Leg.textAll ls) :=
      (parsed_bind_of_some hseparator).trans (parsed_bind_of_some hstep)
    refine .next hnext ?_ (ih hls)
    rw [Leg.textAll_cons]
    simp only [List.length_cons, List.length_append]
    omega

/-- A text that is an expression to its end is read as this expression. -/
theorem read_of_expr {s : List Char} {e : Expr} (h : (expr (s.length + 1) s).parsed = some (e, [])) :
    read (String.ofList s) = .ok e := by
  have hwhole : (whole s).parsed = some (e, []) :=
    (parsed_bind_of_some h).trans (parsed_bind_of_some (p := token endOfText) rfl)
  rw [read_eq_ok_iff, String.toList_ofList, hwhole]
  rfl

/-- The text of a path is read as that path from the root. -/
theorem read_textAll (hls : ∀ l ∈ ls, IsSimpleName l.name.toList) (hne : ls ≠ []) :
    read (String.ofList (Leg.textAll ls)) = .ok (.path .root (ls.map Leg.step)) := by
  obtain ⟨l, ls, rfl⟩ := List.exists_cons_of_ne_nil hne
  obtain ⟨hl, hls⟩ := List.forall_mem_cons.mp hls
  obtain ⟨c, cs, htext, hc⟩ := Leg.text_cons hl
  have hslash : Leg.textAll (l :: ls) = '/' :: c :: (cs ++ Leg.textAll ls) := by
    rw [Leg.textAll_cons, htext]
    rfl
  have hskip : skipBlanks (Leg.textAll (l :: ls)) = '/' :: c :: (cs ++ Leg.textAll ls) := by
    rw [hslash]
    exact skipBlanks_cons (by decide) _
  obtain ⟨n, hn⟩ : ∃ n, (Leg.textAll (l :: ls)).length = n + 1 := ⟨_, congrArg List.length hslash⟩
  have hstep := step_leg n hl (endsStep_textAll ls)
  have hpath := relativePath_of_some hstep (repeats_textAll n hls)
  have hsteps : l.step :: (ls.map fun l => [l.step]).flatten = (l :: ls).map Leg.step := by
    rw [List.map_cons]
    congr 1
    exact (congrArg List.flatten (List.map_map (f := Leg.step) (g := ([·]))).symm).trans
      (flatten_map_singleton _)
  rw [hsteps, htext] at hpath
  refine read_of_expr ?_
  rw [hn]
  exact level_of_pathExpr (notNext_of_ne hskip (by decide))
    (pathExpr_of_slash hskip (ne_slash_of_isNameStart hc) hpath) (.inl rfl)

end Expr

end ReactiveForm
