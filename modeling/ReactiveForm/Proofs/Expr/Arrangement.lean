import ReactiveForm.Proofs.Expr.ShortStep

/-!
# Arrangement of tokens

In a text that is read, a name stands in front of two colons only where an operand may come, and a
node test stands behind them. Where the tokens are arranged like this, whatever looks like a step
that can be abbreviated is one.
-/

set_option autoImplicit false

namespace ReactiveForm.Expr

open Rule

variable {place : Place} {w : List Char} {ts us : List (List Char)} {c : Char}

/-! ## Rows of tokens in order -/

/-- The tokens may come at the place. Where an operator may come, neither a parenthesis opens nor a
digit stands. A name is called, or it is an axis, only where an operand may come. -/
inductive Arranged : Place → List (List Char) → Prop where
  | nil {place : Place} : place ≠ .test → Arranged place []
  | token {place : Place} {c : Char} {w : List Char} {ts : List (List Char)} : place ≠ .test →
      c ≠ ':' → (place = .operator → c ≠ '(' ∧ c.isDigit = false) →
      Arranged (place.after (c :: w)) ts → Arranged place ((c :: w) :: ts)
  | call {w : List Char} {ts : List (List Char)} : StartsName w → Arranged .operand ts →
      Arranged .operand (w :: ['('] :: ts)
  | axis {w : List Char} {ts : List (List Char)} : StartsName w → Arranged .test ts →
      Arranged .operand (w :: [':', ':'] :: ts)
  | test {w : List Char} {ts : List (List Char)} {test : NodeTest} :
      nameTest w = some (test, []) → Arranged .operator ts → Arranged .test (w :: ts)
  | kind {name : String} {ts : List (List Char)} : name ∈ nodeTypes.map Prod.fst →
      Arranged .operator ts → Arranged .test (name.toList :: ['('] :: [')'] :: ts)

theorem StartsName.head_ne (h : StartsName (c :: w)) {d : Char} (hd : isNameStart d = false) :
    c ≠ d := by
  rintro rfl
  obtain ⟨e, es, heq, he⟩ := h
  rw [(List.cons.inj heq).1, he] at hd
  cases hd

theorem startsName_nodeType {name : String} (h : name ∈ nodeTypes.map Prod.fst) :
    StartsName name.toList :=
  (isSimpleName_nodeType h).startsName

/-- No token that may come starts with a colon. -/
theorem Arranged.head_ne_colon (h : Arranged place ((c :: w) :: ts)) : c ≠ ':' := by
  generalize hv : c :: w = v at h
  cases h with
  | token _ hc =>
    obtain ⟨rfl, -⟩ := List.cons.inj hv
    exact hc
  | call hname => exact (hv ▸ hname).head_ne (by decide)
  | axis hname => exact (hv ▸ hname).head_ne (by decide)
  | test hread =>
    obtain ⟨d, ds, rfl, hd⟩ := nameTest_head hread
    obtain ⟨rfl, -⟩ := List.cons.inj hv
    rintro rfl
    revert hd
    decide
  | kind hname =>
    have hstarts := startsName_nodeType hname
    rw [← hv] at hstarts
    exact hstarts.head_ne (by decide)

/-- Nor does one that goes on from an operand open a parenthesis or start with a digit. -/
theorem Arranged.head_operator (h : Arranged .operator ((c :: w) :: ts)) :
    c ≠ '(' ∧ c.isDigit = false := by
  cases h with
  | token _ _ hopens => exact hopens rfl

theorem Arranged.of_colons (h : Arranged place (w :: [':', ':'] :: ts)) :
    place = .operand ∧ Arranged .test ts := by
  cases h with
  | token _ _ _ hrest => exact absurd rfl hrest.head_ne_colon
  | axis _ hrest => exact ⟨rfl, hrest⟩
  | test _ hrest => exact absurd rfl hrest.head_ne_colon

theorem Arranged.of_node (h : Arranged .test (w :: ['('] :: [')'] :: ts)) :
    Arranged .operator ts := by
  cases h with
  | token hplace => exact absurd rfl hplace
  | test _ hrest => exact absurd rfl hrest.head_operator.1
  | kind _ hrest => exact hrest

theorem Arranged.of_slash (h : Arranged place (['/'] :: ts)) :
    place ≠ .test ∧ Arranged .operand ts := by
  have hname : ¬ StartsName ['/'] := fun hstarts => hstarts.head_ne (by decide) rfl
  generalize hv : ['/'] :: ts = xs at h
  cases h with
  | nil => cases hv
  | @token place c w ts hplace _ _ hrest =>
    obtain ⟨hw, rfl⟩ := List.cons.inj hv
    rw [← hw] at hrest
    cases place
    case test => exact absurd rfl hplace
    all_goals exact ⟨hplace, hrest⟩
  | call hstarts => exact absurd ((List.cons.inj hv).1 ▸ hstarts) hname
  | axis hstarts => exact absurd ((List.cons.inj hv).1 ▸ hstarts) hname
  | test hread =>
    rw [← (List.cons.inj hv).1] at hread
    cases hread
  | kind hmem => exact absurd ((List.cons.inj hv).1 ▸ startsName_nodeType hmem) hname

/-! ## Abbreviations of tokens in order -/

theorem startsName_axis (axis : Axis) : StartsName axis.name.toList :=
  (isSimpleName_axis axis).startsName

/-- Only the name of an axis and a slash are abbreviated together with what is behind them. -/
theorem AbbreviatesAt.of_cons (h : AbbreviatesAt place (w :: ts) us)
    (hcolons : StartsName w → ts.head? ≠ some [':', ':']) (hslash : place = .test ∨ w ≠ ['/']) :
    ∃ vs, us = w :: vs ∧ AbbreviatesAt (place.after w) ts vs := by
  -- every rule but `token` and `anyDepth` begins with the name of an axis and its colons
  have hstep : ∀ (axis : Axis) {xs : List (List Char)},
      axis.name.toList :: [':', ':'] :: xs ≠ w :: ts := by
    rintro axis xs heq
    obtain ⟨rfl, rfl⟩ := List.cons.inj heq
    exact hcolons (startsName_axis axis) rfl
  generalize hxs : w :: ts = xs at h
  cases h with
  | nil => cases hxs
  | token h =>
    obtain ⟨rfl, rfl⟩ := List.cons.inj hxs
    exact ⟨_, rfl, h⟩
  | child =>
    rw [tokens_child] at hxs
    exact absurd hxs.symm (hstep .child)
  | attributes =>
    rw [tokens_attribute] at hxs
    exact absurd hxs.symm (hstep .attributes)
  | self =>
    rw [tokens_self] at hxs
    exact absurd hxs.symm (hstep .self)
  | parent =>
    rw [tokens_parent] at hxs
    exact absurd hxs.symm (hstep .parent)
  | anyDepth hplace =>
    rw [tokens_anyDepth] at hxs
    exact absurd (List.cons.inj hxs).1 (hslash.resolve_left hplace)

theorem AbbreviatesAt.of_open (h : AbbreviatesAt place (['('] :: ts) us) (place' : Place) :
    AbbreviatesAt place' (['('] :: ts) us := by
  obtain ⟨vs, rfl, hrest⟩ := h.of_cons (fun hname => absurd rfl (hname.head_ne (by decide)))
    (.inr (by decide))
  refine .token ?_
  rwa [Place.after_eq place' place (by decide)]

theorem AbbreviatesAt.head_operator (h : AbbreviatesAt .operator ts us) :
    us.head? = ts.head? ∨ us.head? = some ['/', '/'] := by
  cases h with
  | nil => exact .inl rfl
  | token => exact .inl rfl
  | anyDepth => exact .inr rfl

theorem Arranged.head_ne_colons (h : Arranged place ts) : ts.head? ≠ some [':', ':'] := by
  intro hhead
  obtain ⟨xs, rfl⟩ := List.head?_eq_some_iff.mp hhead
  exact h.head_ne_colon rfl

/-- A node test stays one, whatever is abbreviated behind it. -/
theorem AbbreviatesAt.startsTest (h : AbbreviatesAt .test ts us) (ha : Arranged .test ts) :
    StartsTest us := by
  cases ha with
  | nil hplace => exact absurd rfl hplace
  | token hplace => exact absurd rfl hplace
  | @test w ts test hread hrest =>
    obtain ⟨vs, rfl, hvs⟩ := h.of_cons (fun _ => hrest.head_ne_colons) (.inl rfl)
    rw [after_of_nameTest hread (by decide)] at hvs
    have hopen : ts.head? ≠ some ['('] := by
      intro hhead
      obtain ⟨xs, rfl⟩ := List.head?_eq_some_iff.mp hhead
      exact hrest.head_operator.1 rfl
    rcases hvs.head_operator with hhead | hhead
    · exact .name hread (hhead ▸ hopen) (hhead ▸ hrest.head_ne_colons)
    · exact .name hread (by simp [hhead]) (by simp [hhead])
  | kind hname hrest =>
    obtain ⟨xs, rfl, hxs⟩ := h.of_cons (fun _ => by simp) (.inl rfl)
    obtain ⟨ys, rfl, hys⟩ := hxs.of_cons (fun _ => by simp) (.inr (by decide))
    obtain ⟨zs, rfl, -⟩ := hys.of_cons (fun _ => hrest.head_ne_colons) (.inr (by decide))
    exact .kind hname

/-- The second row abbreviates the first wherever that one may come, and behind the name of an axis
if it starts with two colons. -/
def Fits (ts us : List (List Char)) : Prop :=
  (∀ place, Arranged place ts → AbbreviatesAt place ts us) ∧
    ∀ place xs, ts = [':', ':'] :: xs → Arranged .test xs → AbbreviatesAt place ts us

theorem Fits.token (h : Fits ts us) : Fits (w :: ts) (w :: us) := by
  constructor
  · intro place ha
    cases ha with
    | token _ _ _ hrest => exact .token (h.1 _ hrest)
    | call _ hrest =>
      have hopen : Arranged .operand (['('] :: _) :=
        .token (by decide) (by decide) (by simp) hrest
      exact .token ((h.1 _ hopen).of_open _)
    | axis _ hrest => exact .token (h.2 _ _ rfl hrest)
    | test hread hrest =>
      refine .token ?_
      rw [after_of_nameTest hread (by decide)]
      exact h.1 _ hrest
    | kind hname hrest =>
      have hclose : Arranged .operand ([')'] :: _) :=
        .token (by decide) (by decide) (by simp) hrest
      have hopen : Arranged .operand (['('] :: _) :=
        .token (by decide) (by decide) (by simp) hclose
      exact .token ((h.1 _ hopen).of_open _)
  · rintro place xs heq ha
    obtain ⟨rfl, rfl⟩ := List.cons.inj heq
    refine .token ?_
    rw [Place.after_colons]
    exact h.1 _ ha

/-- An axis stands where an operand may, with a node test behind it. -/
theorem fits_of_axis {xs : List (List Char)} (hxs : xs = w :: [':', ':'] :: ts)
    (hne : w ≠ [':', ':']) (h : Arranged .test ts → AbbreviatesAt .operand xs us) :
    Fits xs us := by
  subst hxs
  refine ⟨fun place ha => ?_, fun place xs heq => absurd (List.cons.inj heq).1 hne⟩
  obtain ⟨rfl, hrest⟩ := ha.of_colons
  exact h hrest

theorem Abbreviates.fits (h : Abbreviates ts us) : Fits ts us := by
  induction h with
  | nil => exact ⟨fun _ _ => .nil, by simp⟩
  | token _ ih => exact ih.token
  | child _ ih =>
    refine fits_of_axis (congrArg (· ++ _) tokens_child) (by decide) fun hrest => ?_
    have hat := ih.1 _ hrest
    exact .child (hat.startsTest hrest) hat
  | attributes _ ih =>
    refine fits_of_axis (congrArg (· ++ _) tokens_attribute) (by decide) fun hrest => ?_
    have hat := ih.1 _ hrest
    exact .attributes (hat.startsTest hrest) hat
  | self hopen _ ih =>
    refine fits_of_axis (congrArg (· ++ _) tokens_self) (by decide) fun hrest => ?_
    exact .self hopen (ih.1 _ hrest.of_node)
  | parent hopen _ ih =>
    refine fits_of_axis (congrArg (· ++ _) tokens_parent) (by decide) fun hrest => ?_
    exact .parent hopen (ih.1 _ hrest.of_node)
  | anyDepth _ ih =>
    rw [tokens_anyDepth]
    refine ⟨fun place ha => ?_, by simp⟩
    obtain ⟨hplace, hrest⟩ := ha.of_slash
    obtain ⟨-, hrest⟩ := hrest.of_colons.2.of_node.of_slash
    exact tokens_anyDepth ▸ AbbreviatesAt.anyDepth hplace (ih.1 _ hrest)

end ReactiveForm.Expr
