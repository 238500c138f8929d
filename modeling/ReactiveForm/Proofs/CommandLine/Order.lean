import Mathlib
import ReactiveForm.CommandLine.Change

/-!
# The order of changes

Options of different kinds are listed kind by kind, each with its place among the arguments. The
kinds come in the order of the places again, and the texts are dealt out to them as they were given:
each change is read from its own text, and the first text that is wrong is the one reported.
-/

set_option autoImplicit false

namespace ReactiveForm

/-- An option that asks for a change, with its place among the arguments. -/
structure PlacedChange where
  place : Nat
  kind : ChangeKind
  text : String

/-- The text of the kind asks for the change. -/
def Asks (given : ChangeKind × String) (change : Change) : Prop :=
  Change.read given.1 given.2.toList = .ok change

/-- What is wrong with the first of the texts that asks for no change. -/
def FirstWrong (given : List (ChangeKind × String)) (b : BadChange) : Prop :=
  ∃ before after, given = before ++ (b.kind, b.text) :: after ∧
    (∀ g ∈ before, ∃ change, Asks g change) ∧ Change.read b.kind b.text.toList = .error b.error

/-- The options ask for one change for each text, in the order of the texts. They do not ask for
changes exactly when a text is wrong, and then the first such text is reported. -/
structure ChangeOptions.Carries (o : ChangeOptions) (given : List (ChangeKind × String)) : Prop where
  ok_iff : ∀ changes, o.changes = .ok changes ↔ List.Forall₂ Asks given changes
  error_iff : ∀ e, o.changes = .error e ↔ ∃ b, FirstWrong given b ∧ e = .bad b
  fails_iff : (∃ e, o.changes = .error e) ↔
    ∃ g ∈ given, ∃ reason, Change.read g.1 g.2.toList = .error reason

/-! ## Reading one text after the other -/

namespace Change

variable {kind : ChangeKind} {text : String} {given : List (ChangeKind × String)}
  {changes : List Change}

theorem readAll_cons_of_ok {change : Change} (h : Asks (kind, text) change)
    (given : List (ChangeKind × String)) :
    readAll ((kind, text) :: given) = (readAll given).map (change :: ·) := by
  have hread : read kind text.toList = .ok change := h
  rw [readAll, hread]

theorem readAll_cons_of_error {reason : ChangeError} (h : read kind text.toList = .error reason)
    (given : List (ChangeKind × String)) :
    readAll ((kind, text) :: given) = .error ⟨kind, text, reason⟩ := by
  rw [readAll, h]

theorem readAll_eq_ok_iff : readAll given = .ok changes ↔ List.Forall₂ Asks given changes := by
  induction given generalizing changes with
  | nil => cases changes <;> simp [readAll]
  | cons g given ih =>
    obtain ⟨kind, text⟩ := g
    constructor
    · intro h
      cases hread : read kind text.toList with
      | error reason =>
        rw [readAll_cons_of_error hread] at h
        cases h
      | ok change =>
        rw [readAll_cons_of_ok hread] at h
        cases hrest : readAll given with
        | error b =>
          rw [hrest] at h
          cases h
        | ok rest =>
          rw [hrest] at h
          cases h
          exact .cons hread (ih.mp hrest)
    · intro h
      cases h with
      | cons hfirst hrest =>
        rw [readAll_cons_of_ok hfirst, ih.mpr hrest]
        rfl

/-- The first text that is wrong decides. -/
theorem readAll_eq_error_iff {b : BadChange} : readAll given = .error b ↔ FirstWrong given b := by
  induction given with
  | nil => simp [readAll, FirstWrong]
  | cons g given ih =>
    obtain ⟨kind, text⟩ := g
    constructor
    · intro h
      cases hread : read kind text.toList with
      | error reason =>
        rw [readAll_cons_of_error hread] at h
        cases h
        exact ⟨[], given, rfl, nofun, hread⟩
      | ok change =>
        have hrest : readAll given = .error b := by
          rw [readAll_cons_of_ok hread] at h
          cases hrest : readAll given with
          | error => rwa [hrest] at h
          | ok => rw [hrest] at h; cases h
        obtain ⟨before, after, rfl, hbefore, hwrong⟩ := ih.mp hrest
        exact ⟨(kind, text) :: before, after, rfl,
          List.forall_mem_cons.mpr ⟨⟨change, hread⟩, hbefore⟩, hwrong⟩
    · rintro ⟨before, after, heq, hbefore, hwrong⟩
      cases before with
      | nil =>
        cases heq
        exact readAll_cons_of_error hwrong given
      | cons g before =>
        cases heq
        obtain ⟨⟨change, hfirst⟩, hbefore⟩ := List.forall_mem_cons.mp hbefore
        rw [readAll_cons_of_ok hfirst, ih.mpr ⟨before, after, rfl, hbefore, hwrong⟩]
        rfl

end Change

namespace PlacedChange

/-! ## Kinds in their order -/

/-- The texts of a kind, in their order. -/
def textsOf (given : List PlacedChange) (kind : ChangeKind) : List String :=
  (given.filter (·.kind = kind)).map (·.text)

/-- The places of a kind, in their order. -/
def placesOf (given : List PlacedChange) (kind : ChangeKind) : List Nat :=
  (given.filter (·.kind = kind)).map (·.place)

/-- The options stand one behind the other. -/
def Increasing (given : List PlacedChange) : Prop :=
  given.Pairwise fun g h => g.place < h.place

variable {given : List PlacedChange}

theorem count_filter_kind (ps : List (Nat × ChangeKind)) (p : Nat × ChangeKind)
    (kind : ChangeKind) :
    (ps.filter (·.2 = kind)).count p = if p.2 = kind then ps.count p else 0 := by
  split
  next h => exact List.count_filter (by simpa using h)
  next h =>
    refine List.count_eq_zero.mpr fun hmem => h ?_
    simpa using (List.mem_filter.mp hmem).2

theorem perm_kinds (ps : List (Nat × ChangeKind)) :
    (ChangeKind.all.flatMap fun kind => ps.filter (·.2 = kind)).Perm ps := by
  refine List.perm_iff_count.mpr fun p => ?_
  obtain ⟨place, kind⟩ := p
  rw [List.count_flatMap]
  cases kind <;> simp [ChangeKind.all, Function.comp_def, count_filter_kind]

theorem placed_eq_filter (given : List PlacedChange) (kind : ChangeKind) :
    (placesOf given kind).map (fun place => (place, kind))
      = (given.map fun g => (g.place, g.kind)).filter (·.2 = kind) := by
  rw [List.filter_map, placesOf, List.map_map]
  refine List.map_congr_left fun g hg => ?_
  have hkind : g.kind = kind := by simpa using (List.mem_filter.mp hg).2
  simp [hkind]

/-- The places put the kinds into the order of the options. -/
theorem orderOf_placesOf (h : Increasing given) :
    ChangeOptions.orderOf (placesOf given) = given.map (·.kind) := by
  let le := fun p q : Nat × ChangeKind => decide (p.1 ≤ q.1)
  let placed := ChangeKind.all.flatMap fun kind =>
    (placesOf given kind).map fun place => (place, kind)
  let ps := given.map fun g => (g.place, g.kind)
  have hplaced : placed.Perm ps := by
    have hfiltered : placed = ChangeKind.all.flatMap fun kind => ps.filter (·.2 = kind) := by
      simp only [placed, placed_eq_filter]
      rfl
    rw [hfiltered]
    exact perm_kinds ps
  have hperm : (placed.mergeSort le).Perm ps := (List.mergeSort_perm placed le).trans hplaced
  have hsorted : (placed.mergeSort le).Pairwise fun p q => le p q = true := by
    refine List.pairwise_mergeSort (fun p q r hpq hqr => ?_) (fun p q => ?_) placed
    · simp only [le, decide_eq_true_eq] at *
      omega
    · simp only [le, Bool.or_eq_true, decide_eq_true_eq]
      omega
  have hstrict : ps.Pairwise fun p q => p.1 < q.1 := List.pairwise_map.mpr h
  have hnodup : (ps.map Prod.fst).Nodup := List.pairwise_map.mpr (hstrict.imp Nat.ne_of_lt)
  -- the places tell the options apart, so there is only one sorted list of them
  have hsame (p q : Nat × ChangeKind) (hp : p ∈ placed.mergeSort le) (hq : q ∈ ps)
      (hpq : le p q = true) (hqp : le q p = true) : p = q := by
    simp only [le, decide_eq_true_eq] at hpq hqp
    exact List.inj_on_of_nodup_map hnodup (hperm.mem_iff.mp hp) hq (Nat.le_antisymm hpq hqp)
  have heq : placed.mergeSort le = ps := hperm.eq_of_pairwise hsame hsorted
    (hstrict.imp fun hpq => decide_eq_true (Nat.le_of_lt hpq))
  have horder : ChangeOptions.orderOf (placesOf given) = (placed.mergeSort le).map Prod.snd := rfl
  rw [horder, heq, List.map_map]
  rfl

/-! ## Texts dealt out -/

theorem textsOf_append (before after : List PlacedChange) (kind : ChangeKind) :
    textsOf (before ++ after) kind = textsOf before kind ++ textsOf after kind := by
  simp [textsOf]

theorem advance_length (before : List PlacedChange) (g : PlacedChange) :
    ChangeOptions.advance (fun kind => (textsOf before kind).length) g.kind
      = fun kind => (textsOf (before ++ [g]) kind).length := by
  funext kind
  rw [textsOf_append]
  by_cases h : kind = g.kind
  · subst h
    simp [ChangeOptions.advance, textsOf]
  · simp [ChangeOptions.advance, textsOf, h, Ne.symm h]

/-- The kinds of the options that are left get the texts of these. -/
theorem readFrom_textsOf (before after : List PlacedChange) :
    ChangeOptions.readFrom (textsOf (before ++ after)) (fun kind => (textsOf before kind).length)
        (after.map (·.kind))
      = (Change.readAll (after.map fun g => (g.kind, g.text))).mapError .bad := by
  induction after generalizing before with
  | nil => rfl
  | cons g after ih =>
    have htext : (textsOf (before ++ g :: after) g.kind)[(textsOf before g.kind).length]?
        = some g.text := by
      rw [textsOf_append, List.getElem?_append_right (Nat.le_refl _), Nat.sub_self]
      simp [textsOf]
    have hrest := ih (before ++ [g])
    rw [List.append_assoc, List.singleton_append] at hrest
    rw [List.map_cons, List.map_cons, ChangeOptions.readFrom, htext, advance_length, hrest,
      Change.readAll]
    dsimp only
    cases Change.read g.kind g.text.toList with
    | error reason => rfl
    | ok change => cases Change.readAll (after.map fun g => (g.kind, g.text)) <;> rfl

theorem texts_ofPlaces (texts : ChangeKind → List String) (places : ChangeKind → List Nat) :
    (ChangeOptions.ofPlaces texts places).texts = texts := by
  funext kind
  cases kind <;> rfl

theorem kinds_ofPlaces (h : Increasing given) :
    (ChangeOptions.ofPlaces (textsOf given) (placesOf given)).kinds = given.map (·.kind) := by
  have horder : (ChangeOptions.ofPlaces (textsOf given) (placesOf given)).order
      = given.map (·.kind) := orderOf_placesOf h
  rw [ChangeOptions.kinds, horder, texts_ofPlaces]
  -- without options there is no order, and no text either
  cases given <;> rfl

theorem changes_ofPlaces (h : Increasing given) :
    (ChangeOptions.ofPlaces (textsOf given) (placesOf given)).changes
      = (Change.readAll (given.map fun g => (g.kind, g.text))).mapError .bad := by
  rw [ChangeOptions.changes, texts_ofPlaces, kinds_ofPlaces h]
  exact readFrom_textsOf [] given

theorem mapError_eq_ok_iff {ε δ α : Type} {f : ε → δ} {r : Except ε α} {x : α} :
    r.mapError f = .ok x ↔ r = .ok x := by
  cases r <;> simp [Except.mapError]

theorem mapError_eq_error_iff {ε δ α : Type} {f : ε → δ} {r : Except ε α} {e : δ} :
    r.mapError f = .error e ↔ ∃ b, r = .error b ∧ e = f b := by
  cases r <;> simp [Except.mapError, eq_comm]

theorem exists_asks {changes : List Change} {texts : List (ChangeKind × String)}
    (h : List.Forall₂ Asks texts changes) : ∀ g ∈ texts, ∃ change, Asks g change := by
  induction h with
  | nil => exact List.forall_mem_nil _
  | cons hfirst _ ih => exact List.forall_mem_cons.mpr ⟨⟨_, hfirst⟩, ih⟩

/-- The texts of the kinds and the order of the kinds carry the options themselves. -/
theorem carries_ofPlaces (h : Increasing given) :
    (ChangeOptions.ofPlaces (textsOf given) (placesOf given)).Carries
      (given.map fun g => (g.kind, g.text)) := by
  -- given in increasing order, the changes are put back in that order
  have hok (changes : List Change) :
      (ChangeOptions.ofPlaces (textsOf given) (placesOf given)).changes = .ok changes ↔
        List.Forall₂ Asks (given.map fun g => (g.kind, g.text)) changes := by
    rw [changes_ofPlaces h, mapError_eq_ok_iff, Change.readAll_eq_ok_iff]
  have herror (e : ChangesError) :
      (ChangeOptions.ofPlaces (textsOf given) (placesOf given)).changes = .error e ↔
        ∃ b, FirstWrong (given.map fun g => (g.kind, g.text)) b ∧ e = .bad b := by
    rw [changes_ofPlaces h, mapError_eq_error_iff]
    simp only [Change.readAll_eq_error_iff]
  refine ⟨hok, herror, ?_, ?_⟩
  · rintro ⟨e, he⟩
    obtain ⟨b, ⟨before, after, hgiven, _, hwrong⟩, _⟩ := (herror e).mp he
    exact ⟨(b.kind, b.text), by rw [hgiven]; simp, b.error, hwrong⟩
  · rintro ⟨g, hg, reason, hwrong⟩
    cases hchanges : (ChangeOptions.ofPlaces (textsOf given) (placesOf given)).changes with
    | error e => exact ⟨e, rfl⟩
    | ok changes =>
      obtain ⟨change, hasks⟩ := exists_asks ((hok changes).mp hchanges) g hg
      exact nomatch hwrong.symm.trans hasks

end PlacedChange

end ReactiveForm
