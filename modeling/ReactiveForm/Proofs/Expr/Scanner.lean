import ReactiveForm.Proofs.Expr.Lexeme

/-!
# Scanners on tokens

The scanners of the grammar look at the token in front and no further. Most of them take it as a
whole or refuse it; those that look for a word or for one character may leave the end of a token
behind.
-/

set_option autoImplicit false

namespace ReactiveForm.Expr

open Rule

variable {α β : Type} {s t u v w n : List Char} {c d : Char}

/-- What the scanner reads of a text, and what it leaves of the token in front, depends on that
token alone. -/
def Local (p : Scan α) : Prop :=
  ∀ w u, Lexeme w u → p (w ++ u) = (p w).map fun r => (r.1, r.2 ++ u)

/-- The scanner reads the token in front as a whole, if it reads anything. -/
def Whole (p : Scan α) : Prop :=
  ∀ w u, Lexeme w u → p (w ++ u) = (p w).map fun r => (r.1, u)

/-- A token is a name, a name with a wildcard, or it starts with a character that no name starts
with. -/
theorem Lexeme.name_or (h : Lexeme w u) :
    (∃ c cs, w = c :: cs ∧ isNameStart c = false) ∨
      (IsSimpleName w ∧ NoneInFront isNameChar u ∧ nameAfterColon u = none ∧
        ∀ r, u ≠ ':' :: '*' :: r) ∨
      (∃ p, IsSimpleName p ∧ w = p ++ [':', '*']) ∨
      ∃ p q, IsSimpleName p ∧ IsSimpleName q ∧ w = p ++ ':' :: q ∧ NoneInFront isNameChar u := by
  cases h with
  | star => exact .inl ⟨'*', [], rfl, by decide⟩
  | wildcard hp => exact .inr (.inr (.inl ⟨_, hp, rfl⟩))
  | name hw hstop hcolon hwild => exact .inr (.inl ⟨hw, hstop, hcolon, hwild⟩)
  | qualified hp hq hstop => exact .inr (.inr (.inr ⟨_, _, hp, hq, rfl, hstop⟩))
  | whole hne hdigits =>
    obtain ⟨c, cs, rfl⟩ := List.exists_cons_of_ne_nil hne
    exact .inl ⟨c, cs, rfl, not_isNameStart_of_isDigit (hdigits c List.mem_cons_self)⟩
  | @decimal w f u hne hdigits =>
    cases w with
    | nil => exact .inl ⟨'.', f, rfl, by decide⟩
    | cons c cs =>
      exact .inl ⟨c, _, rfl, not_isNameStart_of_isDigit (hdigits c List.mem_cons_self)⟩
  | quoted hc =>
    refine .inl ⟨_, _, rfl, ?_⟩
    simp only [List.mem_cons, List.not_mem_nil, or_false] at hc
    rcases hc with rfl | rfl <;> decide
  | «variable» => exact .inl ⟨'$', _, rfl, by decide⟩
  | pair hw =>
    simp only [pairs, List.mem_cons, List.not_mem_nil, or_false] at hw
    rcases hw with rfl | rfl | rfl | rfl | rfl | rfl <;> exact .inl ⟨_, _, rfl, by decide⟩
  | single hc => exact .inl ⟨_, [], rfl, hc⟩

/-- The name characters in front of a token, and what stops them. -/
theorem Lexeme.run (h : Lexeme w u) :
    (∃ c cs, w = c :: cs ∧ isNameStart c = false) ∨
      ∃ n q, IsSimpleName n ∧ w = n ++ q ∧ NoneInFront isNameChar q ∧
        NoneInFront isNameChar (q ++ u) ∧ (q = [] ∨ ∃ d r, q = ':' :: d :: r ∧ d ≠ ':') := by
  have hcolon : ∀ r, NoneInFront isNameChar (':' :: r) := noneInFront_cons (by decide)
  rcases h.name_or with hnot | ⟨hw, hstop, -⟩ | ⟨p, hp, rfl⟩ | ⟨p, q, hp, hq, rfl, -⟩
  · exact .inl hnot
  · exact .inr ⟨w, [], hw, by simp, noneInFront_nil _, hstop, .inl rfl⟩
  · exact .inr ⟨p, _, hp, rfl, hcolon _, hcolon _, .inr ⟨'*', [], rfl, by decide⟩⟩
  · refine .inr ⟨p, _, hp, rfl, hcolon _, hcolon _, .inr ?_⟩
    obtain ⟨d, ds, rfl, hd, -⟩ := hq
    refine ⟨d, ds, rfl, ?_⟩
    rintro rfl
    exact absurd hd (by decide)

/-! ## Words and characters -/

theorem word_singleton (c : Char) (s : List Char) : Scan.word [c] s = Scan.char c s := by
  rw [Scan.word]
  rcases Scan.char c s with _ | ⟨_, t⟩ <;> rfl

theorem Local.char (c : Char) : Local (Scan.char c) := by
  intro w u h
  obtain ⟨d, w, rfl⟩ := List.exists_cons_of_ne_nil h.ne_nil
  by_cases hd : d = c <;> simp [Scan.char, hd]

def StartsName (w : List Char) : Prop :=
  ∃ c cs, w = c :: cs ∧ isNameStart c = true

theorem IsSimpleName.startsName (h : IsSimpleName w) : StartsName w := by
  obtain ⟨c, cs, rfl, hc, -⟩ := h
  exact ⟨c, cs, rfl, hc⟩

/-- The scanner looks up a name, and leaves nothing of a token but what stands behind a colon. -/
structure LooksUp (p : Scan α) : Prop where
  isLocal : Local p
  leftover : ∀ w u a v, Lexeme w u → p w = some (a, v) →
    ∃ n, StartsName n ∧ w = n ++ v ∧ (v = [] ∨ ∃ d r, v = ':' :: d :: r ∧ d ≠ ':')

/-- A scanner that looks up the name characters in front. -/
theorem looksUp_run {f : List Char → Option α} (hf : ∀ n a, f n = some a → IsSimpleName n) :
    LooksUp fun s => (f (s.takeWhile isNameChar)).map fun a => (a, s.dropWhile isNameChar) := by
  have hnone : ∀ {c : Char}, isNameStart c = false →
      ∀ t, f ((c :: t).takeWhile isNameChar) = none := by
    intro c hc t
    rcases hread : f ((c :: t).takeWhile isNameChar) with _ | a
    · rfl
    obtain ⟨d, ds, heq, hd, -⟩ := hf _ a hread
    rw [List.takeWhile_cons] at heq
    split at heq
    · rw [(List.cons.inj heq).1, hd] at hc
      cases hc
    · cases heq
  constructor
  · intro w u h
    rcases h.run with ⟨c, cs, rfl, hc⟩ | ⟨n, q, hn, rfl, hq, hqu, -⟩
    · dsimp only
      rw [List.cons_append, hnone hc, hnone hc]
      rfl
    · dsimp only
      rw [List.append_assoc, hn.takeWhile hqu, hn.dropWhile hqu, hn.takeWhile hq, hn.dropWhile hq]
      cases f n <;> rfl
  · intro w u a v h hread
    rcases h.run with ⟨c, cs, rfl, hc⟩ | ⟨n, q, hn, rfl, hq, -, hrest⟩
    · rw [hnone hc] at hread
      cases hread
    · rw [hn.takeWhile hq, hn.dropWhile hq] at hread
      obtain ⟨b, -, heq⟩ := Option.map_eq_some_iff.1 hread
      obtain rfl := (Prod.mk.inj heq).2
      exact ⟨n, hn.startsName, rfl, hrest⟩

theorem looksUp_axisName : LooksUp axisName := by
  refine looksUp_run (f := fun n => Axis.ofName? (String.ofList n)) fun n axis h => ?_
  have hname : axis.name = String.ofList n := by
    simpa using List.find?_some h
  rw [← String.toList_ofList (l := n), ← hname]
  exact isSimpleName_axis axis

theorem isSimpleName_nodeType {name : String} (h : name ∈ nodeTypes.map Prod.fst) :
    IsSimpleName name.toList := by
  have hread : ∀ m ∈ nodeTypes.map Prod.fst, simpleName m.toList = some (m.toList, []) := by
    decide
  exact (simpleName_sound (hread name h)).1

theorem looksUp_nodeType : LooksUp nodeType := by
  refine looksUp_run (f := fun n => nodeTypes.lookup (String.ofList n)) fun n test h => ?_
  rw [← String.toList_ofList (l := n)]
  refine isSimpleName_nodeType ?_
  by_contra hnot
  have hnone : nodeTypes.lookup (String.ofList n) = none := by
    refine List.lookup_eq_none_iff.mpr fun p hp => bne_iff_ne.mpr fun heq => hnot ?_
    rw [heq]
    exact List.mem_map_of_mem hp
  rw [hnone] at h
  cases h

theorem looksUp_keyword {m : String} (hm : IsSimpleName m.toList) : LooksUp (keyword m) := by
  have heq : keyword m = fun s =>
      ((fun n => if n = m.toList then some () else none) (s.takeWhile isNameChar)).map
        fun a => (a, s.dropWhile isNameChar) := by
    funext s
    dsimp only
    unfold keyword
    split <;> rfl
  rw [heq]
  refine looksUp_run (f := fun n => if n = m.toList then some () else none) fun n a h => ?_
  split at h
  next hn => rwa [hn]
  · cases h

/-- What a token is, told by the character it starts with. -/
theorem Lexeme.head (h : Lexeme (c :: w) u) :
    isNameStart c = true ∨ c.isDigit = true ∨ c ∈ ['"', '\'', '$'] ∨
      (c = '.' ∧ w ≠ [] ∧ ∀ d ∈ w, d.isDigit = true) ∨ c :: w ∈ pairs ∨
      (w = [] ∧ ∀ p ∈ pairs, Scan.word p (c :: u) = none) := by
  generalize hv : c :: w = v at h
  have hname : ∀ {p q : List Char}, IsSimpleName p → c :: w = p ++ q → isNameStart c = true := by
    rintro p q ⟨d, ds, rfl, hd, -⟩ heq
    rwa [(List.cons.inj heq).1]
  have hdigit : ∀ {p q : List Char}, (∀ d ∈ p, d.isDigit = true) → p ≠ [] → c :: w = p ++ q →
      c.isDigit = true := by
    intro p q hp hne heq
    obtain ⟨d, ds, rfl⟩ := List.exists_cons_of_ne_nil hne
    rw [(List.cons.inj heq).1]
    exact hp d List.mem_cons_self
  cases h with
  | star =>
    obtain ⟨rfl, rfl⟩ := List.cons.inj hv
    refine .inr (.inr (.inr (.inr (.inr ⟨rfl, fun p hp => ?_⟩))))
    simp only [pairs, List.mem_cons, List.not_mem_nil, or_false] at hp
    rcases hp with rfl | rfl | rfl | rfl | rfl | rfl <;> rfl
  | wildcard hp => exact .inl (hname hp hv)
  | name hp => exact .inl (hname hp (hv.trans (List.append_nil _).symm))
  | qualified hp => exact .inl (hname hp hv)
  | whole hne hp => exact .inr (.inl (hdigit hp hne (hv.trans (List.append_nil _).symm)))
  | @decimal p f u hne hp hf =>
    cases p with
    | nil =>
      obtain ⟨rfl, rfl⟩ := List.cons.inj hv
      exact .inr (.inr (.inr (.inl ⟨rfl, hne, hf⟩)))
    | cons d ds => exact .inr (.inl (hdigit hp (by simp) hv))
  | quoted hc =>
    rw [← (List.cons.inj hv).1] at hc
    simp only [List.mem_cons, List.not_mem_nil, or_false] at hc ⊢
    rcases hc with rfl | rfl <;> simp
  | «variable» => exact .inr (.inr (.inl (by simp [(List.cons.inj hv).1])))
  | pair hw => exact .inr (.inr (.inr (.inr (.inl hw))))
  | single _ _ _ _ _ hpairs =>
    obtain ⟨rfl, rfl⟩ := List.cons.inj hv
    exact .inr (.inr (.inr (.inr (.inr ⟨rfl, hpairs⟩))))

/-- The marks that no token goes on behind. -/
def solid : List Char :=
  ['(', ')', '[', ']', ',', '|', '-', '+', '=', '*', '@']

theorem Lexeme.eq_nil (h : Lexeme (c :: w) u) (hc : c ∈ solid) : w = [] := by
  have hmark : isNameStart c = false ∧ c.isDigit = false ∧ c ∉ ['"', '\'', '$'] ∧ c ≠ '.' ∧
      ∀ p ∈ pairs, p.head? ≠ some c := by
    simp only [solid, List.mem_cons, List.not_mem_nil, or_false] at hc
    rcases hc with rfl | rfl | rfl | rfl | rfl | rfl | rfl | rfl | rfl | rfl | rfl <;>
      exact ⟨by decide, by decide, by decide, by decide, by decide⟩
  rcases h.head with hname | hdigit | hother | ⟨hdot, -⟩ | hpair | ⟨hnil, -⟩
  · cases hmark.1.symm.trans hname
  · cases hmark.2.1.symm.trans hdigit
  · exact absurd hother hmark.2.2.1
  · exact absurd hdot hmark.2.2.2.1
  · exact absurd rfl (hmark.2.2.2.2 _ hpair)
  · exact hnil

theorem Whole.of_local {p : Scan α} (hp : Local p)
    (h : ∀ w u a v, Lexeme w u → p w = some (a, v) → v = []) : Whole p := by
  intro w u hw
  rw [hp w u hw]
  rcases hread : p w with _ | ⟨a, v⟩
  · rfl
  · simp [h w u a v hw hread]

theorem Whole.char (hc : c ∈ solid) : Whole (Scan.char c) := by
  refine Whole.of_local (Local.char c) fun w u a v hw h => ?_
  obtain ⟨d, w, rfl⟩ := List.exists_cons_of_ne_nil hw.ne_nil
  by_cases hd : d = c
  · subst hd
    obtain rfl := hw.eq_nil hc
    simpa [Scan.char] using h
  · simp [Scan.char, hd] at h

/-! ## Names -/

theorem nameTest_of_wildcard (hn : IsSimpleName n) (u : List Char) :
    nameTest (n ++ ':' :: '*' :: u) = some (.qualifier (String.ofList n), u) := by
  have hread : simpleName (n ++ ':' :: '*' :: u) = some (n, ':' :: '*' :: u) :=
    simpleName_append hn (noneInFront_cons (by decide) _)
  obtain ⟨c, cs, rfl, hc, -⟩ := hn
  rw [List.cons_append] at hread ⊢
  rw [nameTest_of_start hc, hread]
  rfl

theorem nameTest_of_qualified {p : List Char} (hn : IsSimpleName n)
    (hsimple : simpleName s = some (n, u)) (hwild : ∀ r, u ≠ ':' :: '*' :: r)
    (hread : qualifiedName s = some (String.ofList p, t)) :
    nameTest s = some (.name (String.ofList p), t) := by
  obtain ⟨-, rfl, -⟩ := simpleName_sound hsimple
  obtain ⟨c, cs, rfl, hc, -⟩ := hn
  rw [List.cons_append] at hsimple hread ⊢
  rw [nameTest_of_start hc, hsimple, hread]
  split
  next m r heq => exact absurd (Prod.mk.inj (Option.some.inj heq)).2 (hwild r)
  · rfl

theorem nameTest_of_not_start (hc : isNameStart c = false) (hstar : c ≠ '*') :
    nameTest (c :: s) = none := by
  have hnot : NoneInFront isNameStart (c :: s) := noneInFront_cons hc s
  unfold nameTest
  split
  next heq => exact absurd (List.cons.inj heq).1 hstar
  · rw [simpleName_of_not_start hnot, qualifiedName_of_not_start hnot]
    rfl

theorem qualifiedName_of_simple (hn : IsSimpleName n) (hstop : NoneInFront isNameChar u)
    (hcolon : nameAfterColon u = none) : qualifiedName (n ++ u) = some (String.ofList n, u) :=
  qualifiedName_append (.inl hn) hstop hcolon

theorem qualifiedName_of_pair {p q : List Char} (hp : IsSimpleName p) (hq : IsSimpleName q)
    (hstop : NoneInFront isNameChar u) :
    qualifiedName (p ++ ':' :: (q ++ u)) = some (String.ofList (p ++ ':' :: q), u) := by
  have hfirst : simpleName (p ++ ':' :: (q ++ u)) = some (p, ':' :: (q ++ u)) :=
    simpleName_append hp (noneInFront_cons (by decide) _)
  simp [qualifiedName, hfirst, nameAfterColon, simpleName_append hq hstop]

theorem Whole.nameTest : Whole nameTest := by
  intro w u h
  rcases h.name_or with ⟨c, cs, rfl, hc⟩ | ⟨hw, hstop, hcolon, hwild⟩ | ⟨p, hp, rfl⟩ |
    ⟨p, q, hp, hq, rfl, hstop⟩
  · by_cases hstar : c = '*'
    · subst hstar
      obtain rfl := h.eq_nil (by decide)
      rfl
    · rw [List.cons_append, nameTest_of_not_start hc hstar, nameTest_of_not_start hc hstar]
      rfl
  · have hread : ∀ v, NoneInFront isNameChar v → nameAfterColon v = none →
        (∀ r, v ≠ ':' :: '*' :: r) → Expr.nameTest (w ++ v) = some (.name (String.ofList w), v) :=
      fun v hv hvcolon hvwild => nameTest_of_qualified hw (simpleName_append hw hv) hvwild
        (qualifiedName_of_simple hw hv hvcolon)
    have halone := hread [] (noneInFront_nil _) rfl (by simp)
    rw [List.append_nil] at halone
    rw [hread u hstop hcolon hwild, halone]
    rfl
  · rw [List.append_assoc, List.cons_append, List.cons_append, nameTest_of_wildcard hp,
      nameTest_of_wildcard hp]
    rfl
  · have hcolon : ∀ v, NoneInFront isNameChar (':' :: v) := noneInFront_cons (by decide)
    have hread : ∀ v, NoneInFront isNameChar v →
        Expr.nameTest (p ++ ':' :: (q ++ v)) = some (.name (String.ofList (p ++ ':' :: q)), v) := by
      intro v hv
      refine nameTest_of_qualified hp (simpleName_append hp (hcolon _)) ?_
        (qualifiedName_of_pair hp hq hv)
      rintro r heq
      obtain ⟨d, ds, rfl, hd, -⟩ := hq
      obtain ⟨rfl, -⟩ : d = '*' ∧ _ := by simpa using heq
      exact absurd hd (by decide)
    have halone := hread [] (noneInFront_nil _)
    rw [List.append_nil] at halone
    rw [List.append_assoc, List.cons_append, hread u hstop, halone]
    rfl

/-- Of a name with a wildcard the name alone is read. -/
theorem looksUp_qualifiedName : LooksUp qualifiedName := by
  have hwild : ∀ {p v : List Char}, IsSimpleName p →
      qualifiedName (p ++ ':' :: '*' :: v) = some (String.ofList p, ':' :: '*' :: v) :=
    fun hp => qualifiedName_of_simple hp (noneInFront_cons (by decide) _)
      (nameAfterColon_of_not_start (noneInFront_cons (by decide) _))
  constructor
  · intro w u h
    rcases h.name_or with ⟨c, cs, rfl, hc⟩ | ⟨hw, hstop, hcolon, -⟩ | ⟨p, hp, rfl⟩ |
      ⟨p, q, hp, hq, rfl, hstop⟩
    · rw [List.cons_append, qualifiedName_of_not_start (noneInFront_cons hc _),
        qualifiedName_of_not_start (noneInFront_cons hc _)]
      rfl
    · have halone := qualifiedName_of_simple hw (noneInFront_nil _) rfl
      rw [List.append_nil] at halone
      rw [qualifiedName_of_simple hw hstop hcolon, halone]
      rfl
    · rw [List.append_assoc, List.cons_append, List.cons_append, hwild hp, hwild hp]
      rfl
    · have halone := qualifiedName_of_pair hp hq (noneInFront_nil _)
      rw [List.append_nil] at halone
      rw [List.append_assoc, List.cons_append, qualifiedName_of_pair hp hq hstop, halone]
      rfl
  · intro w u a v h hread
    have hwhole : ∀ {m : String}, StartsName w → qualifiedName w = some (m, []) →
        ∃ n, StartsName n ∧ w = n ++ v ∧ (v = [] ∨ ∃ d r, v = ':' :: d :: r ∧ d ≠ ':') := by
      intro m hw hm
      obtain rfl : [] = v := (Prod.mk.inj (Option.some.inj (hm.symm.trans hread))).2
      exact ⟨w, hw, (List.append_nil w).symm, .inl rfl⟩
    rcases h.name_or with ⟨c, cs, rfl, hc⟩ | ⟨hw, -⟩ | ⟨p, hp, rfl⟩ | ⟨p, q, hp, hq, rfl, -⟩
    · rw [qualifiedName_of_not_start (noneInFront_cons hc _)] at hread
      cases hread
    · have halone := qualifiedName_of_simple hw (noneInFront_nil _) rfl
      rw [List.append_nil] at halone
      exact hwhole hw.startsName halone
    · obtain rfl : [':', '*'] = v :=
        (Prod.mk.inj (Option.some.inj ((hwild hp).symm.trans hread))).2
      exact ⟨p, hp.startsName, rfl, .inr ⟨'*', [], rfl, by decide⟩⟩
    · have halone := qualifiedName_of_pair hp hq (noneInFront_nil _)
      rw [List.append_nil] at halone
      obtain ⟨c, cs, rfl, hc⟩ := hp.startsName
      exact hwhole ⟨c, _, rfl, hc⟩ halone

/-! ## Literals and variables -/

theorem not_isDigit_of_isNameStart (hc : isNameStart c = true) : c.isDigit = false := by
  cases hdigit : c.isDigit with
  | false => rfl
  | true =>
    rw [not_isNameStart_of_isDigit hdigit] at hc
    cases hc

theorem numeral_of_not_digit (hc : c.isDigit = false) (hdot : c ≠ '.') (s : List Char) :
    numeral (c :: s) = none := by
  have hstop : NoneInFront Char.isDigit (c :: s) := noneInFront_cons hc s
  have hpoint : ∀ r, (c :: s).dropWhile Char.isDigit ≠ '.' :: r := by
    rw [hstop.dropWhile]
    exact fun r heq => hdot (List.cons.inj heq).1
  rw [numeral_of_no_point hpoint, hstop.takeWhile]
  rfl

/-- Literals and variables are told by the character they start with. -/
theorem Lexeme.literal_or (h : Lexeme w u) :
    (∃ c cs, w = c :: cs ∧ c.isDigit = false ∧ c ∉ ['"', '\'', '.', '$']) ∨
      (w ≠ [] ∧ (∀ d ∈ w, d.isDigit = true) ∧ NoneInFront Char.isDigit u ∧ ∀ r, u ≠ '.' :: r) ∨
      (∃ n f, w = n ++ '.' :: f ∧ n ++ f ≠ [] ∧ (∀ d ∈ n, d.isDigit = true) ∧
        (∀ d ∈ f, d.isDigit = true) ∧ NoneInFront Char.isDigit u) ∨
      (∃ c v, w = c :: (v ++ [c]) ∧ c ∈ ['"', '\''] ∧ c ∉ v) ∨
      (∃ n, w = '$' :: n ∧ IsQualifiedName n ∧ NoneInFront isNameChar u ∧
        (':' ∈ n ∨ nameAfterColon u = none)) ∨
      w = ['.', '.'] ∨
      ∃ c, w = [c] ∧ numeral (c :: u) = none ∧ (∀ m ∈ ['"', '\''], Expr.quoted m (c :: u) = none) ∧
        (c = '$' → qualifiedName u = none) := by
  have hname : ∀ {p q : List Char}, IsSimpleName p → ∃ c cs, p ++ q = c :: cs ∧
      c.isDigit = false ∧ c ∉ ['"', '\'', '.', '$'] := by
    rintro p q ⟨c, cs, rfl, hc, -⟩
    refine ⟨c, _, rfl, not_isDigit_of_isNameStart hc, fun hmem => ?_⟩
    simp only [List.mem_cons, List.not_mem_nil, or_false] at hmem
    rcases hmem with rfl | rfl | rfl | rfl <;> exact absurd hc (by decide)
  cases h with
  | star => exact .inl ⟨'*', [], rfl, by decide, by decide⟩
  | wildcard hp => exact .inl (hname hp)
  | name hw =>
    have hhead := hname (q := []) hw
    rw [List.append_nil] at hhead
    exact .inl hhead
  | qualified hp => exact .inl (hname hp)
  | whole hne hdigits hstop hdot => exact .inr (.inl ⟨hne, hdigits, hstop, hdot⟩)
  | decimal hne hn hf hstop => exact .inr (.inr (.inl ⟨_, _, rfl, hne, hn, hf, hstop⟩))
  | quoted hc hv => exact .inr (.inr (.inr (.inl ⟨_, _, rfl, hc, hv⟩)))
  | «variable» hn hstop hcolon =>
    exact .inr (.inr (.inr (.inr (.inl ⟨_, rfl, hn, hstop, hcolon⟩))))
  | pair hw =>
    simp only [pairs, List.mem_cons, List.not_mem_nil, or_false] at hw
    rcases hw with rfl | rfl | rfl | rfl | rfl | rfl
    case inr.inr.inl => exact .inr (.inr (.inr (.inr (.inr (.inl rfl)))))
    all_goals exact .inl ⟨_, _, rfl, by decide, by decide⟩
  | single _ _ hnumeral hquoted hdollar =>
    exact .inr (.inr (.inr (.inr (.inr (.inr ⟨_, rfl, hnumeral, hquoted, hdollar⟩)))))

theorem numeral_of_digits (hne : w ≠ []) (hw : ∀ d ∈ w, d.isDigit = true)
    (hstop : NoneInFront Char.isDigit u) (hdot : ∀ r, u ≠ '.' :: r) :
    numeral (w ++ u) = some (Number.ofDigits w [], u) := by
  have hdrop := dropWhile_append_rest hw hstop
  rw [numeral_of_no_point (by rwa [hdrop]), takeWhile_append_rest hw hstop, hdrop, if_neg]
  simpa using hne

theorem numeral_of_decimal {f : List Char} (hne : n ++ f ≠ []) (hn : ∀ d ∈ n, d.isDigit = true)
    (hf : ∀ d ∈ f, d.isDigit = true) (hstop : NoneInFront Char.isDigit u) :
    numeral (n ++ '.' :: (f ++ u)) = some (Number.ofDigits n f, u) := by
  have hpoint : NoneInFront Char.isDigit ('.' :: (f ++ u)) := noneInFront_cons (by decide) _
  rw [numeral_of_point (dropWhile_append_rest hn hpoint), takeWhile_append_rest hn hpoint,
    takeWhile_append_rest hf hstop, dropWhile_append_rest hf hstop, if_neg]
  intro hempty
  refine hne ?_
  simp only [Bool.and_eq_true, List.isEmpty_iff] at hempty
  rw [hempty.1, hempty.2]
  rfl

theorem numeral_alone (h : numeral (c :: u) = none) : numeral [c] = none := by
  by_cases hdigit : c.isDigit = true
  · unfold numeral at h
    dsimp only at h
    rw [List.takeWhile_cons_of_pos hdigit] at h
    split at h <;> simp at h
  · by_cases hdot : c = '.'
    · rw [hdot]
      rfl
    · exact numeral_of_not_digit (by simpa using hdigit) hdot []

theorem Whole.numeral : Whole numeral := by
  intro w u h
  have hrefuse : ∀ {c cs}, c.isDigit = false → c ≠ '.' → Expr.numeral (c :: cs ++ u) =
      (Expr.numeral (c :: cs)).map fun r => (r.1, u) := by
    intro c cs hdigit hdot
    rw [List.cons_append, numeral_of_not_digit hdigit hdot, numeral_of_not_digit hdigit hdot]
    rfl
  rcases h.literal_or with ⟨c, cs, rfl, hdigit, hc⟩ | ⟨hne, hdigits, hstop, hdot⟩ |
    ⟨n, f, rfl, hne, hn, hf, hstop⟩ | ⟨c, v, rfl, hc, -⟩ | ⟨n, rfl, -⟩ | rfl | ⟨c, rfl, hnone, -⟩
  · exact hrefuse hdigit (by rintro rfl; exact hc (by decide))
  · have halone := numeral_of_digits hne hdigits (noneInFront_nil _) (by simp)
    rw [List.append_nil] at halone
    rw [numeral_of_digits hne hdigits hstop hdot, halone]
    rfl
  · have halone := numeral_of_decimal hne hn hf (noneInFront_nil _)
    rw [List.append_nil] at halone
    rw [List.append_assoc, List.cons_append, numeral_of_decimal hne hn hf hstop, halone]
    rfl
  · simp only [List.mem_cons, List.not_mem_nil, or_false] at hc
    rcases hc with rfl | rfl <;> exact hrefuse (by decide) (by decide)
  · exact hrefuse (by decide) (by decide)
  · rfl
  · rw [List.singleton_append, hnone, numeral_alone hnone]
    rfl

theorem quoted_of_ne (hc : c ≠ d) (s : List Char) : quoted d (c :: s) = none :=
  if_neg hc

theorem Whole.quoted (hm : c ∈ ['"', '\'']) : Whole (quoted c) := by
  intro w u h
  have hrefuse : ∀ {d ds}, d ≠ c → Expr.quoted c (d :: ds ++ u) =
      (Expr.quoted c (d :: ds)).map fun r => (r.1, u) := by
    intro d ds hd
    rw [List.cons_append, quoted_of_ne hd, quoted_of_ne hd]
    rfl
  have hmark : c.isDigit = false ∧ c ≠ '.' ∧ c ≠ '$' := by
    simp only [List.mem_cons, List.not_mem_nil, or_false] at hm
    rcases hm with rfl | rfl <;> decide
  have hdigit : ∀ {d}, d.isDigit = true → d ≠ c := by
    rintro d hd rfl
    cases hmark.1.symm.trans hd
  rcases h.literal_or with ⟨d, ds, rfl, -, hd⟩ | ⟨hne, hdigits, -⟩ | ⟨n, f, rfl, -, hn, -⟩ |
    ⟨d, v, rfl, -, hv⟩ | ⟨n, rfl, -⟩ | rfl | ⟨d, rfl, -, hnone, -⟩
  · refine hrefuse ?_
    rintro rfl
    simp only [List.mem_cons, List.not_mem_nil, or_false] at hm hd
    exact hd (by rcases hm with h | h <;> simp [h])
  · obtain ⟨d, ds, rfl⟩ := List.exists_cons_of_ne_nil hne
    exact hrefuse (hdigit (hdigits d List.mem_cons_self))
  · cases n with
    | nil => exact hrefuse hmark.2.1.symm
    | cons d ds => exact hrefuse (hdigit (hn d List.mem_cons_self))
  · by_cases hd : d = c
    · subst hd
      rw [List.cons_append, List.append_assoc, List.singleton_append, quoted_append hv,
        quoted_append hv]
      rfl
    · exact hrefuse hd
  · exact hrefuse hmark.2.2.symm
  · exact hrefuse hmark.2.1.symm
  · have halone : Expr.quoted c [d] = none := by
      by_cases hd : d = c
      · rw [hd]
        exact if_pos rfl
      · exact quoted_of_ne hd []
    rw [List.singleton_append, hnone c hm, halone]
    rfl

theorem variableName_of_ne (hc : c ≠ '$') (s : List Char) : variableName (c :: s) = none := by
  unfold variableName
  split
  next heq => exact absurd (List.cons.inj heq).1 hc
  · rfl

theorem Whole.variableName : Whole variableName := by
  intro w u h
  have hrefuse : ∀ {d ds}, d ≠ '$' → Expr.variableName (d :: ds ++ u) =
      (Expr.variableName (d :: ds)).map fun r => (r.1, u) := by
    intro d ds hd
    rw [List.cons_append, variableName_of_ne hd, variableName_of_ne hd]
    rfl
  have hdigit : ∀ {d : Char}, d.isDigit = true → d ≠ '$' := by
    rintro d hd rfl
    exact absurd hd (by decide)
  rcases h.literal_or with ⟨d, ds, rfl, -, hd⟩ | ⟨hne, hdigits, -⟩ | ⟨n, f, rfl, -, hn, -⟩ |
    ⟨d, v, rfl, hd, -⟩ | ⟨n, rfl, hn, hstop, hcolon⟩ | rfl | ⟨d, rfl, -, -, hnone⟩
  · exact hrefuse (by rintro rfl; exact hd (by decide))
  · obtain ⟨d, ds, rfl⟩ := List.exists_cons_of_ne_nil hne
    exact hrefuse (hdigit (hdigits d List.mem_cons_self))
  · cases n with
    | nil => exact hrefuse (by decide)
    | cons d ds => exact hrefuse (hdigit (hn d List.mem_cons_self))
  · refine hrefuse ?_
    rintro rfl
    exact absurd hd (by decide)
  · have hread : ∀ v, NoneInFront isNameChar v → (':' ∈ n ∨ nameAfterColon v = none) →
        qualifiedName (n ++ v) = some (String.ofList n, v) := by
      intro v hv hvcolon
      rcases hn with hn | ⟨p, q, hp, hq, rfl⟩
      · refine qualifiedName_of_simple hn hv (hvcolon.resolve_left fun hmem => ?_)
        exact absurd (hn.forall_isNameChar ':' hmem) (by decide)
      · rw [List.append_assoc, List.cons_append]
        exact qualifiedName_of_pair hp hq hv
    have halone := hread [] (noneInFront_nil _) (.inr rfl)
    rw [List.append_nil] at halone
    change qualifiedName (n ++ u) = (qualifiedName n).map _
    rw [hread u hstop hcolon, halone]
    rfl
  · exact hrefuse (by decide)
  · by_cases hd : d = '$'
    · subst hd
      change qualifiedName u = (qualifiedName []).map _
      rw [hnone rfl]
      rfl
    · exact hrefuse hd

/-! ## Marks of two characters -/

theorem word_pair_of_ne {a b : Char} (hc : c ≠ a) (s : List Char) :
    Scan.word [a, b] (c :: s) = none := by
  simp [Scan.word, Scan.char, hc]

theorem Whole.word (hn : n ∈ pairs) : Whole (Scan.word n) := by
  intro w u h
  obtain ⟨a, b, rfl, hname, hdigit, hmark, hb⟩ : ∃ a b, n = [a, b] ∧ isNameStart a = false ∧
      a.isDigit = false ∧ a ∉ ['"', '\'', '$'] ∧ ∀ w, a :: w ∈ pairs → w = [b] := by
    simp only [pairs, List.mem_cons, List.not_mem_nil, or_false] at hn
    rcases hn with rfl | rfl | rfl | rfl | rfl | rfl <;>
      exact ⟨_, _, rfl, by decide, by decide, by decide, by simp [pairs]⟩
  obtain ⟨c, w, rfl⟩ := List.exists_cons_of_ne_nil h.ne_nil
  by_cases hc : c = a
  · subst hc
    rcases h.head with hstart | hnumber | hother | ⟨rfl, hne, hdigits⟩ | hpair | ⟨rfl, hnone⟩
    · cases hname.symm.trans hstart
    · cases hdigit.symm.trans hnumber
    · exact absurd hother hmark
    · obtain rfl : b = '.' := by
        simpa [pairs] using hn
      obtain ⟨d, ds, rfl⟩ := List.exists_cons_of_ne_nil hne
      have hd : d ≠ '.' := by
        rintro rfl
        exact absurd (hdigits '.' List.mem_cons_self) (by decide)
      simp [Scan.word, Scan.char, hd]
    · obtain rfl := hb w hpair
      simp [Scan.word, Scan.char]
    · rw [List.singleton_append, hnone _ hn]
      simp [Scan.word, Scan.char]
  · rw [List.cons_append, word_pair_of_ne hc, word_pair_of_ne hc]
    rfl

/-! ## What is read is a token -/

theorem Next.scan_local {p : Scan α} (h : Next w s u) (hp : Local p) :
    p (skipBlanks s) = (p w).map fun r => (r.1, r.2 ++ u) := by
  rw [h.eq, hp w u h.kind]

theorem Next.scan {p : Scan α} (h : Next w s u) (hp : Whole p) :
    p (skipBlanks s) = (p w).map fun r => (r.1, u) := by
  rw [h.eq, hp w u h.kind]

/-- What a scanner of whole tokens reads is a token. -/
theorem Whole.exists_next {p : Scan α} {a : α} (hp : Whole p) (hempty : p [] = none)
    (h : p (skipBlanks s) = some (a, t)) : ∃ w v, Next w s t ∧ p w = some (a, v) := by
  have hs : skipBlanks s ≠ [] := fun hs => by
    rw [hs, hempty] at h
    cases h
  obtain ⟨w, u, hw⟩ := exists_lexeme hs
  have hw : Next w s u := hw
  rw [hw.scan hp, Option.map_eq_some_iff] at h
  obtain ⟨⟨b, v⟩, hread, heq⟩ := h
  obtain ⟨rfl, rfl⟩ : b = a ∧ u = t := by simpa using heq
  exact ⟨w, v, hw, hread⟩

/-- What a scanner of names reads is a token, or a colon that is no part of two stands behind it. -/
theorem LooksUp.exists_next {p : Scan α} {a : α} (hp : LooksUp p) (hempty : p [] = none)
    (h : p (skipBlanks s) = some (a, t)) :
    (∃ w, Next w s t ∧ StartsName w ∧ p w = some (a, [])) ∨
      ∃ d r, t = ':' :: d :: r ∧ d ≠ ':' := by
  have hs : skipBlanks s ≠ [] := fun hs => by
    rw [hs, hempty] at h
    cases h
  obtain ⟨w, u, hw⟩ := exists_lexeme hs
  have hw : Next w s u := hw
  rw [hw.scan_local hp.isLocal, Option.map_eq_some_iff] at h
  obtain ⟨⟨b, v⟩, hread, heq⟩ := h
  obtain ⟨rfl, rfl⟩ : b = a ∧ v ++ u = t := by simpa using heq
  obtain ⟨n, hn, rfl, rfl | ⟨d, r, rfl, hd⟩⟩ := hp.leftover w u b v hw.kind hread
  · rw [List.append_nil] at hread hw
    exact .inl ⟨n, hw, hn, hread⟩
  · exact .inr ⟨d, _, rfl, hd⟩

theorem next_of_pair {a : Unit} (hw : w ∈ pairs) (h : Scan.word w (skipBlanks s) = some (a, t)) :
    Next w s t := by
  obtain ⟨v, x, hv, hread⟩ := (Whole.word hw).exists_next (word_of_pairLexeme hw rfl) h
  have hwhole := Whole.word hw v t hv.kind
  rw [hread] at hwhole
  obtain rfl : v = w := List.append_cancel_right (word_eq_some_iff.mp hwhole)
  exact hv

theorem exists_next_of_char {a : Unit} (h : Scan.char c (skipBlanks s) = some (a, t)) :
    ∃ w u, Next (c :: w) s u ∧ t = w ++ u := by
  rw [← word_singleton] at h
  exact exists_next (word_eq_some_iff.mp h)

theorem next_of_mark {a : Unit} (hc : c ∈ solid) (h : (mark c s).parsed = some (a, t)) :
    Next [c] s t := by
  obtain ⟨w, u, hw, rfl⟩ := exists_next_of_char h
  obtain rfl := hw.kind.eq_nil hc
  exact hw

end ReactiveForm.Expr
