import ReactiveForm.Expr.Attempt

/-!
# What rules read

How a rule reads is followed through its value and the rest of the text; the place where it was
stuck does not matter here. A repetition is described by its rounds (`Rule.Repeats`), a property of
all values of a rule by `Rule.Ensures`, and what the rest of a text says about the text by
`Rule.TracesBack`.
-/

set_option autoImplicit false

namespace ReactiveForm.Rule

variable {α β : Type}

@[simp] theorem parsed_pure (a : α) (s : List Char) : ((pure a : Rule α) s).parsed = some (a, s) :=
  rfl

@[simp] theorem parsed_bind (p : Rule α) (f : α → Rule β) (s : List Char) :
    ((p >>= f) s).parsed = (p s).parsed.bind fun (a, t) => (f a t).parsed := by
  change (Rule.bind p f s).parsed = _
  unfold Rule.bind
  rcases p s with ⟨_ | ⟨a, t⟩, stuck⟩ <;> rfl

theorem parsed_bind_of_some {p : Rule α} {f : α → Rule β} {s t : List Char} {a : α}
    (h : (p s).parsed = some (a, t)) : ((p >>= f) s).parsed = (f a t).parsed := by
  rw [parsed_bind, h]
  rfl

theorem parsed_bind_of_none {p : Rule α} {f : α → Rule β} {s : List Char}
    (h : (p s).parsed = none) : ((p >>= f) s).parsed = none := by
  rw [parsed_bind, h]
  rfl

@[simp] theorem parsed_orElse (p q : Rule α) (s : List Char) :
    ((p <|> q) s).parsed = (p s).parsed.or (q s).parsed := by
  change (Rule.orElse p q s).parsed = _
  unfold Rule.orElse
  rcases p s with ⟨_ | r, stuck⟩ <;> rfl

@[simp] theorem parsed_exactly (p : Scan α) (s : List Char) : (exactly p s).parsed = p s :=
  rfl

@[simp] theorem parsed_named (p : Rule α) (s : List Char) :
    (named p s).parsed = (p (skipBlanks s)).parsed := by
  unfold named
  rcases h : p (skipBlanks s) with ⟨_ | r, stuck⟩ <;> simp only [h]

@[simp] theorem parsed_token (p : Scan α) (s : List Char) :
    (token p s).parsed = p (skipBlanks s) := by
  rw [token, parsed_named, parsed_exactly]

theorem parsed_mark (c : Char) (s : List Char) :
    (mark c s).parsed = Scan.char c (skipBlanks s) :=
  rfl

theorem optional_of_some {p : Rule α} {s t : List Char} {a : α} (h : (p s).parsed = some (a, t)) :
    (optional p s).parsed = some (some a, t) := by
  unfold optional
  rcases hp : p s with ⟨_ | r, stuck⟩ <;> simp_all

theorem optional_of_none {p : Rule α} {s : List Char} (h : (p s).parsed = none) :
    (optional p s).parsed = some (none, s) := by
  unfold optional
  rcases hp : p s with ⟨_ | r, stuck⟩ <;> simp_all

/-! ## Blanks -/

theorem skipBlanks_skipBlanks (s : List Char) : skipBlanks (skipBlanks s) = skipBlanks s := by
  induction s with
  | nil => rfl
  | cons c s ih =>
    by_cases h : Number.isPadding c <;> simp_all [skipBlanks]

@[simp] theorem skipBlanks_nil : skipBlanks [] = [] :=
  rfl

theorem skipBlanks_cons {c : Char} (h : Number.isPadding c = false) (s : List Char) :
    skipBlanks (c :: s) = c :: s := by
  simp [skipBlanks, h]

@[simp] theorem skipBlanks_space (s : List Char) : skipBlanks (' ' :: s) = skipBlanks s := by
  simp [skipBlanks, Number.isPadding]

/-! ## Repetitions -/

/-- The rounds of a repetition: `as` are read one after the other, and the rule is refused at the
rest. Each round but the last one must take a character. -/
inductive Repeats (p : Rule α) : List Char → List α → List Char → Prop where
  | stop {s : List Char} : (p s).parsed = none → Repeats p s [] s
  | last {s t : List Char} {a : α} :
      (p s).parsed = some (a, t) → s ≠ [] → (p t).parsed = none → Repeats p s [a] t
  | next {s t u : List Char} {a : α} {as : List α} :
      (p s).parsed = some (a, t) → t.length < s.length → Repeats p t as u →
      Repeats p s (a :: as) u

theorem upTo_succ_of_none {p : Rule α} {s : List Char} (h : (p s).parsed = none) (n : Nat) :
    (upTo p (n + 1) s).parsed = some ([], s) := by
  simp only [upTo]
  rcases hp : p s with ⟨_ | r, stuck⟩ <;> simp_all

theorem upTo_succ_of_some {p : Rule α} {s t : List Char} {a : α}
    (h : (p s).parsed = some (a, t)) (n : Nat) :
    (upTo p (n + 1) s).parsed =
      (upTo p n t).parsed.map fun (as, rest) => (a :: as, rest) := by
  simp only [upTo]
  rcases hp : p s with ⟨_ | r, stuck⟩ <;> simp_all

theorem Repeats.upTo {p : Rule α} {s t : List Char} {as : List α} (h : Repeats p s as t) :
    ∀ n, s.length < n → (upTo p n s).parsed = some (as, t) := by
  induction h with
  | stop hp =>
    intro n hn
    obtain ⟨n, rfl⟩ := Nat.exists_eq_succ_of_ne_zero (by omega : n ≠ 0)
    exact upTo_succ_of_none hp n
  | @last s t a hp hs ht =>
    intro n hn
    have := List.length_pos_iff.2 hs
    obtain ⟨n, rfl⟩ := Nat.exists_eq_add_of_le' (by omega : 2 ≤ n)
    rw [upTo_succ_of_some hp, upTo_succ_of_none ht]
    rfl
  | @next s t u a as hp hlt _ ih =>
    intro n hn
    obtain ⟨n, rfl⟩ := Nat.exists_eq_succ_of_ne_zero (by omega : n ≠ 0)
    rw [upTo_succ_of_some hp, ih n (by omega)]
    rfl

theorem Repeats.many {p : Rule α} {s t : List Char} {as : List α} (h : Repeats p s as t) :
    (many p s).parsed = some (as, t) :=
  h.upTo _ (by omega)

theorem many_of_none {p : Rule α} {s : List Char} (h : (p s).parsed = none) :
    (many p s).parsed = some ([], s) :=
  (Repeats.stop h).many

theorem many_of_once {p : Rule α} {s t : List Char} {a : α} (h : (p s).parsed = some (a, t))
    (hs : s ≠ []) (hstop : (p t).parsed = none) : (many p s).parsed = some ([a], t) :=
  (Repeats.last h hs hstop).many

/-- A repetition that should read `as` and leave `rest`. Where nothing should be read, it ends early,
and `Stuck` holds of what is left. -/
def RepeatsOrStops (p : Rule α) (Stuck : List Char → Prop) (s : List Char) :
    Option (List α) → List Char → Prop
  | some as, rest => Repeats p s as rest
  | none, _ => ∃ as t, Repeats p s as t ∧ Stuck t

/-- A repetition over texts written one behind the other: `text xs` is written for `xs`, and of each
text is read what `value` says, or it is where the repetition ends. -/
theorem repeats_texts {γ : Type} {p : Rule α} {Stuck : List Char → Prop} (value : γ → Option α)
    (all : List γ → Option (List α)) (text : List γ → List Char) (hnil : all [] = some [])
    (hcons : ∀ x xs, all (x :: xs) = (value x).bind fun a => (all xs).map (a :: ·))
    (hstop : (p (text [])).parsed = none) :
    ∀ xs : List γ,
      (∀ x ∈ xs, ∀ ys a, value x = some a → (p (text (x :: ys))).parsed = some (a, text ys) ∧
        (text ys).length < (text (x :: ys)).length) →
      (∀ x ∈ xs, ∀ ys, value x = none → RepeatsOrStops p Stuck (text (x :: ys)) none (text [])) →
      RepeatsOrStops p Stuck (text xs) (all xs) (text []) := by
  intro xs
  induction xs with
  | nil =>
    intro _ _
    rw [hnil]
    exact Repeats.stop hstop
  | cons x xs ih =>
    intro hread hstuck
    have ih := ih (fun y hy => hread y (List.mem_cons_of_mem x hy))
      fun y hy => hstuck y (List.mem_cons_of_mem x hy)
    rw [hcons]
    cases hvalue : value x with
    | none => exact hstuck x List.mem_cons_self xs hvalue
    | some a =>
      obtain ⟨hfirst, hlength⟩ := hread x List.mem_cons_self xs a hvalue
      cases hall : all xs with
      | none =>
        rw [hall] at ih
        obtain ⟨as, t, has, ht⟩ := ih
        exact ⟨a :: as, t, .next hfirst hlength has, ht⟩
      | some as =>
        rw [hall] at ih
        exact Repeats.next hfirst hlength ih

/-! ## Properties of all values -/

/-- All values that the rule reads have the property. -/
def Ensures (P : α → Prop) (p : Rule α) : Prop :=
  ∀ s a t, (p s).parsed = some (a, t) → P a

variable {P : α → Prop} {Q : β → Prop}

theorem ensures_pure {a : α} (h : P a) : Ensures P (pure a : Rule α) := by
  rintro s b t hb
  obtain ⟨rfl, rfl⟩ : a = b ∧ s = t := by simpa using hb
  exact h

theorem ensures_refuse : Ensures P (refuse : Rule α) := by
  rintro s a t h
  cases h

theorem Ensures.bind {p : Rule α} {f : α → Rule β} (hp : p.Ensures P)
    (hf : ∀ a, P a → (f a).Ensures Q) : (p >>= f).Ensures Q := by
  intro s b u h
  rw [parsed_bind, Option.bind_eq_some_iff] at h
  obtain ⟨⟨a, t⟩, ha, hb⟩ := h
  exact hf a (hp s a t ha) t b u hb

theorem ensures_bind_of_all {p : Rule α} {f : α → Rule β} (hf : ∀ a, (f a).Ensures Q) :
    (p >>= f).Ensures Q :=
  Ensures.bind (P := fun _ => True) (fun _ _ _ _ => trivial) fun a _ => hf a

theorem Ensures.orElse {p q : Rule α} (hp : p.Ensures P) (hq : q.Ensures P) :
    (p <|> q).Ensures P := by
  intro s a t h
  rw [parsed_orElse, Option.or_eq_some_iff] at h
  rcases h with h | ⟨-, h⟩
  · exact hp s a t h
  · exact hq s a t h

theorem Ensures.named {p : Rule α} (hp : p.Ensures P) : (named p).Ensures P := by
  intro s a t h
  rw [parsed_named] at h
  exact hp _ a t h

theorem ensures_token {p : Scan α} (h : ∀ s a t, p s = some (a, t) → P a) : (token p).Ensures P := by
  intro s a t ha
  rw [parsed_token] at ha
  exact h _ a t ha

theorem Ensures.optional {p : Rule α} (hp : p.Ensures P) :
    (optional p).Ensures fun a => ∀ b ∈ a, P b := by
  intro s a t h b hb
  rcases hr : (p s).parsed with _ | ⟨c, u⟩
  · rw [optional_of_none hr] at h
    obtain ⟨rfl, -⟩ : none = a ∧ s = t := by simpa using h
    cases hb
  · rw [optional_of_some hr] at h
    obtain ⟨rfl, -⟩ : some c = a ∧ u = t := by simpa using h
    obtain rfl : c = b := by simpa using hb
    exact hp s c u hr

theorem Ensures.upTo {p : Rule α} (hp : p.Ensures P) (n : Nat) :
    (upTo p n).Ensures fun as => ∀ a ∈ as, P a := by
  induction n with
  | zero => exact ensures_pure (by simp)
  | succ n ih =>
    intro s as t h
    rcases hr : (p s).parsed with _ | ⟨c, u⟩
    · rw [upTo_succ_of_none hr] at h
      obtain ⟨rfl, -⟩ : [] = as ∧ s = t := by simpa using h
      simp
    · rw [upTo_succ_of_some hr, Option.map_eq_some_iff] at h
      obtain ⟨⟨cs, v⟩, hcs, heq⟩ := h
      obtain ⟨rfl, rfl⟩ : c :: cs = as ∧ v = t := by simpa using heq
      intro a ha
      rcases List.mem_cons.1 ha with rfl | ha
      · exact hp s a u hr
      · exact ih u cs v hcs a ha

theorem Ensures.many {p : Rule α} (hp : p.Ensures P) :
    (many p).Ensures fun as => ∀ a ∈ as, P a :=
  fun s => hp.upTo (s.length + 1) s

/-! ## Rules followed backwards -/

variable {before : List Char → Prop} {after : α → List Char → Prop}
  {next : β → List Char → Prop}

/-- Wherever the rule leaves a text `after` it, it was given a text `before` it. -/
def TracesBack (before : List Char → Prop) (after : α → List Char → Prop) (p : Rule α) : Prop :=
  ∀ s a t, (p s).parsed = some (a, t) → after a t → before s

theorem tracesBack_pure {a : α} (h : ∀ s, after a s → before s) :
    (pure a : Rule α).TracesBack before after := by
  rintro s b t hb ht
  obtain ⟨rfl, rfl⟩ : a = b ∧ s = t := by simpa using hb
  exact h s ht

theorem TracesBack.bind {p : Rule α} {f : α → Rule β} (hp : p.TracesBack before after)
    (hf : ∀ a, (f a).TracesBack (after a) next) : (p >>= f).TracesBack before next := by
  intro s b u h hu
  rw [parsed_bind, Option.bind_eq_some_iff] at h
  obtain ⟨⟨a, t⟩, ha, hb⟩ := h
  exact hp s a t ha (hf a t b u hb hu)

theorem TracesBack.map {after : List Char → Prop} {p : Rule α}
    (hp : p.TracesBack before fun _ => after) (f : α → β) :
    (p >>= fun a => pure (f a)).TracesBack before fun _ => after :=
  hp.bind fun _ => tracesBack_pure fun _ h => h

theorem TracesBack.orElse {p q : Rule α} (hp : p.TracesBack before after)
    (hq : q.TracesBack before after) : (p <|> q).TracesBack before after := by
  intro s a t h ht
  rw [parsed_orElse, Option.or_eq_some_iff] at h
  rcases h with h | ⟨-, h⟩
  · exact hp s a t h ht
  · exact hq s a t h ht

theorem TracesBack.imp {before' : List Char → Prop} {after' : α → List Char → Prop} {p : Rule α}
    (hp : p.TracesBack before after) (hbefore : ∀ s, before s → before' s)
    (hafter : ∀ a s, after' a s → after a s) : p.TracesBack before' after' :=
  fun s a t h ht => hbefore s (hp s a t h (hafter a t ht))

theorem TracesBack.optional {after : Option α → List Char → Prop} {p : Rule α}
    (hp : p.TracesBack before fun a => after (some a)) (hnone : ∀ s, after none s → before s) :
    (optional p).TracesBack before after := by
  intro s a t h ht
  rcases hr : (p s).parsed with _ | ⟨b, u⟩
  · rw [optional_of_none hr] at h
    obtain ⟨rfl, rfl⟩ : none = a ∧ s = t := by simpa using h
    exact hnone s ht
  · rw [optional_of_some hr] at h
    obtain ⟨rfl, rfl⟩ : some b = a ∧ u = t := by simpa using h
    exact hp s b u hr ht

theorem TracesBack.upTo {p : Rule α} (hp : p.TracesBack before fun _ => before) (n : Nat) :
    (upTo p n).TracesBack before fun _ => before := by
  induction n with
  | zero => exact tracesBack_pure fun _ h => h
  | succ n ih =>
    intro s as t h ht
    rcases hr : (p s).parsed with _ | ⟨a, u⟩
    · rw [upTo_succ_of_none hr] at h
      obtain ⟨-, rfl⟩ : [] = as ∧ s = t := by simpa using h
      exact ht
    · rw [upTo_succ_of_some hr, Option.map_eq_some_iff] at h
      obtain ⟨⟨bs, v⟩, hbs, heq⟩ := h
      obtain ⟨-, rfl⟩ : a :: bs = as ∧ v = t := by simpa using heq
      exact hp s a u hr (ih u bs v hbs ht)

theorem TracesBack.many {p : Rule α} (hp : p.TracesBack before fun _ => before) :
    (many p).TracesBack before fun _ => before :=
  fun s => hp.upTo (s.length + 1) s

end ReactiveForm.Rule
