import ReactiveForm.Proofs.Expr.Operand

/-!
# Tokens

A text is a row of tokens with blanks between them: names, names with a wildcard, decimals, quoted
texts, variables, and marks of one or two characters, each as long as it can be. What a scanner of
the grammar makes of a text depends on the token in front alone.
-/

set_option autoImplicit false

namespace ReactiveForm.Expr

open Rule

/-! ## The token in front -/

/-- A decimal as it is written. -/
def numberLexeme : Scan (List Char) := fun s =>
  let whole := s.takeWhile Char.isDigit
  match s.dropWhile Char.isDigit with
  | '.' :: rest =>
    let fraction := rest.takeWhile Char.isDigit
    if whole.isEmpty && fraction.isEmpty then none
    else some (whole ++ '.' :: fraction, rest.dropWhile Char.isDigit)
  | rest => if whole.isEmpty then none else some (whole, rest)

def quotedLexeme (mark : Char) : Scan (List Char) :=
  Scan.map (fun inside : String => mark :: (inside.toList ++ [mark])) (quoted mark)

/-- The name behind a dollar sign. -/
def variableName : Scan String
  | '$' :: s => qualifiedName s
  | _ => none

def variableLexeme : Scan (List Char) :=
  Scan.map (fun name : String => '$' :: name.toList) variableName

/-- The marks of two characters. -/
def pairs : List (List Char) :=
  [[':', ':'], ['/', '/'], ['.', '.'], ['!', '='], ['<', '='], ['>', '=']]

def pairLexeme : Scan (List Char)
  | a :: b :: s => if [a, b] ∈ pairs then some ([a, b], s) else none
  | _ => none

def singleLexeme : Scan (List Char)
  | [] => none
  | c :: s => some ([c], s)

/-- The token in front of a text without blanks in front: a name or a wildcard, a decimal, a quoted
text, a variable or a mark. -/
def lexeme : Scan (List Char) :=
  [Scan.map NodeTest.canonical nameTest, numberLexeme, quotedLexeme '"', quotedLexeme '\'',
    variableLexeme, pairLexeme].foldr Scan.orElse singleLexeme

/-- The tokens of a text, whatever blanks stand between them. -/
@[irreducible] def tokens (s : List Char) : List (List Char) :=
  (Scan.upTo (fun s => lexeme (skipBlanks s)) s.length s).1

example : tokens " a ::b:c [.5]".toList =
    ["a".toList, "::".toList, "b:c".toList, "[".toList, ".5".toList, "]".toList] := by
  decide +kernel

/-! ## Kinds of tokens -/

/-- The token `w` in front of `u`. -/
inductive Lexeme : (w u : List Char) → Prop where
  | star {u : List Char} : Lexeme ['*'] u
  | wildcard {p u : List Char} : IsSimpleName p → Lexeme (p ++ [':', '*']) u
  | name {w u : List Char} : IsSimpleName w → NoneInFront isNameChar u → nameAfterColon u = none →
      (∀ r, u ≠ ':' :: '*' :: r) → Lexeme w u
  | qualified {p q u : List Char} : IsSimpleName p → IsSimpleName q → NoneInFront isNameChar u →
      Lexeme (p ++ ':' :: q) u
  | whole {w u : List Char} : w ≠ [] → (∀ c ∈ w, c.isDigit = true) → NoneInFront Char.isDigit u →
      (∀ r, u ≠ '.' :: r) → Lexeme w u
  | decimal {w f u : List Char} : w ++ f ≠ [] → (∀ c ∈ w, c.isDigit = true) →
      (∀ c ∈ f, c.isDigit = true) → NoneInFront Char.isDigit u → Lexeme (w ++ '.' :: f) u
  | quoted {c : Char} {v u : List Char} : c ∈ ['"', '\''] → c ∉ v → Lexeme (c :: (v ++ [c])) u
  | variable {n u : List Char} : IsQualifiedName n → NoneInFront isNameChar u →
      (':' ∈ n ∨ nameAfterColon u = none) → Lexeme ('$' :: n) u
  | pair {w u : List Char} : w ∈ pairs → Lexeme w u
  | single {c : Char} {u : List Char} : isNameStart c = false → c ≠ '*' → numeral (c :: u) = none →
      (∀ m ∈ ['"', '\''], Expr.quoted m (c :: u) = none) → (c = '$' → qualifiedName u = none) →
      (∀ p ∈ pairs, Scan.word p (c :: u) = none) → Lexeme [c] u

variable {s t u v w : List Char} {c : Char}

/-- A name that has been read, and what stops it. -/
theorem qualifiedName_stop {name : String} (h : qualifiedName s = some (name, u)) :
    s = name.toList ++ u ∧ NoneInFront isNameChar u ∧
      (IsSimpleName name.toList ∧ simpleName s = some (name.toList, u) ∧ nameAfterColon u = none ∨
        ∃ p q, IsSimpleName p ∧ IsSimpleName q ∧ name.toList = p ++ ':' :: q) := by
  simp only [qualifiedName, Option.bind_eq_bind, Option.bind_eq_some_iff] at h
  obtain ⟨⟨p, t⟩, hp, h⟩ := h
  obtain ⟨hsimple, rfl, hstop⟩ := simpleName_sound hp
  rcases hsecond : nameAfterColon t with _ | ⟨m, r⟩
  · simp only [hsecond, Option.some.injEq, Prod.mk.injEq] at h
    obtain ⟨rfl, rfl⟩ := h
    rw [String.toList_ofList]
    exact ⟨rfl, hstop, .inl ⟨hsimple, hp, hsecond⟩⟩
  · simp only [hsecond, Option.some.injEq, Prod.mk.injEq] at h
    obtain ⟨rfl, rfl⟩ := h
    rw [String.toList_ofList]
    unfold nameAfterColon at hsecond
    split at hsecond
    · obtain ⟨⟨q, v⟩, hq, heq⟩ := Option.map_eq_some_iff.1 hsecond
      obtain ⟨rfl, rfl⟩ : ':' :: q = m ∧ v = r := by simpa using heq
      obtain ⟨hqname, rfl, hend⟩ := simpleName_sound hq
      exact ⟨by simp, hend, .inr ⟨p, q, hsimple, hqname, rfl⟩⟩
    · cases hsecond

theorem nameTest_sound {test : NodeTest} (h : nameTest s = some (test, u)) :
    s = test.canonical ++ u ∧ Lexeme test.canonical u := by
  unfold nameTest at h
  split at h
  · cases h
    exact ⟨rfl, .star⟩
  split at h
  next n r hname =>
    cases h
    obtain ⟨hn, rfl, -⟩ := simpleName_sound hname
    rw [canonical_qualifier, String.toList_ofList]
    exact ⟨by simp, .wildcard hn⟩
  next hwild =>
    obtain ⟨⟨name, r⟩, hname, heq⟩ := Option.map_eq_some_iff.1 h
    obtain ⟨rfl, rfl⟩ : NodeTest.name name = test ∧ r = u := by simpa using heq
    obtain ⟨hsplit, hstop, hkind⟩ := qualifiedName_stop hname
    refine ⟨hsplit, ?_⟩
    change Lexeme name.toList r
    rcases hkind with ⟨hsimple, hread, hcolon⟩ | ⟨p, q, hp, hq, heq⟩
    · refine .name hsimple hstop hcolon ?_
      rintro v rfl
      exact hwild _ v hread
    · rw [heq]
      exact .qualified hp hq hstop

theorem numberLexeme_sound (h : numberLexeme s = some (w, u)) : s = w ++ u ∧ Lexeme w u := by
  have hwhole : ∀ c ∈ s.takeWhile Char.isDigit, c.isDigit = true :=
    List.all_eq_true.1 List.all_takeWhile
  have hsplit : s.takeWhile Char.isDigit ++ s.dropWhile Char.isDigit = s :=
    List.takeWhile_append_dropWhile
  have hstop : ∀ t : List Char, NoneInFront Char.isDigit (t.dropWhile Char.isDigit) := by
    intro t c hc
    have hnot := List.head?_dropWhile_not Char.isDigit t
    rwa [hc] at hnot
  unfold numberLexeme at h
  dsimp only at h
  split at h
  next r hrest =>
    split at h
    · cases h
    next hempty =>
      cases h
      have hr : r.takeWhile Char.isDigit ++ r.dropWhile Char.isDigit = r :=
        List.takeWhile_append_dropWhile
      refine ⟨by rw [List.append_assoc, List.cons_append, hr, ← hrest, hsplit], ?_⟩
      refine .decimal ?_ hwhole (List.all_eq_true.1 List.all_takeWhile) (hstop r)
      intro hnil
      obtain ⟨hw, hf⟩ := List.append_eq_nil_iff.1 hnil
      exact hempty (by rw [hw, hf]; rfl)
  next hpoint =>
    split at h
    · cases h
    next hempty =>
      cases h
      refine ⟨hsplit.symm, .whole ?_ hwhole (hstop s) hpoint⟩
      intro hnil
      exact hempty (by rw [hnil]; rfl)

theorem quoted_sound {name : String} (h : quoted c s = some (name, u)) :
    s = c :: (name.toList ++ c :: u) ∧ c ∉ name.toList := by
  unfold quoted at h
  split at h
  · cases h
  next d rest =>
    split at h
    next hd =>
      subst hd
      split at h
      next e after hdrop =>
        cases h
        have hsplit : rest.takeWhile (· != d) ++ rest.dropWhile (· != d) = rest :=
          List.takeWhile_append_dropWhile
        have hstop := List.head?_dropWhile_not (· != d) rest
        rw [hdrop] at hstop hsplit
        obtain rfl : e = d := by simpa using hstop
        rw [String.toList_ofList]
        refine ⟨by rw [hsplit], fun hmem => ?_⟩
        have hall := List.all_eq_true.1 (List.all_takeWhile (p := (· != e)) (l := rest)) e hmem
        simp at hall
      · cases h
    · cases h

theorem numeral_of_point {r : List Char} (h : s.dropWhile Char.isDigit = '.' :: r) :
    numeral s =
      if (s.takeWhile Char.isDigit).isEmpty && (r.takeWhile Char.isDigit).isEmpty then none
      else some (Number.ofDigits (s.takeWhile Char.isDigit) (r.takeWhile Char.isDigit),
        r.dropWhile Char.isDigit) := by
  unfold numeral
  dsimp only
  rw [h]
  rfl

theorem numeral_of_no_point (h : ∀ r, s.dropWhile Char.isDigit ≠ '.' :: r) :
    numeral s =
      if (s.takeWhile Char.isDigit).isEmpty then none
      else some (Number.ofDigits (s.takeWhile Char.isDigit) [], s.dropWhile Char.isDigit) := by
  unfold numeral
  dsimp only
  split
  next r hr => exact absurd hr (h r)
  · rfl

theorem numeral_of_numberLexeme (h : numberLexeme s = none) : numeral s = none := by
  unfold numberLexeme at h
  dsimp only at h
  split at h
  next r hpoint =>
    rw [numeral_of_point hpoint]
    split at h
    next hempty => exact if_pos hempty
    · cases h
  next hpoint =>
    rw [numeral_of_no_point hpoint]
    split at h
    next hempty => exact if_pos hempty
    · cases h

theorem variableLexeme_sound (h : variableLexeme s = some (w, u)) : s = w ++ u ∧ Lexeme w u := by
  obtain ⟨⟨name, r⟩, hname, heq⟩ := Option.map_eq_some_iff.1 h
  obtain ⟨rfl, rfl⟩ : '$' :: name.toList = w ∧ r = u := by simpa using heq
  unfold variableName at hname
  split at hname
  next t =>
    obtain ⟨rfl, hstop, hkind⟩ := qualifiedName_stop hname
    refine ⟨rfl, .variable (qualifiedName_sound hname).1 hstop ?_⟩
    rcases hkind with ⟨-, -, hcolon⟩ | ⟨p, q, -, -, heq⟩
    · exact .inr hcolon
    · rw [heq]
      exact .inl (by simp)
  · cases hname

theorem pairLexeme_sound (h : pairLexeme s = some (w, u)) : s = w ++ u ∧ Lexeme w u := by
  unfold pairLexeme at h
  split at h
  · split at h
    next hmem =>
      cases h
      exact ⟨rfl, .pair hmem⟩
    · cases h
  · cases h

theorem word_eq_some_iff : Scan.word w s = some ((), u) ↔ s = w ++ u := by
  induction w generalizing s with
  | nil => simp [Scan.word]
  | cons c w ih =>
    cases s with
    | nil => simp [Scan.word, Scan.char]
    | cons d s =>
      by_cases hd : d = c
      · simp [Scan.word, Scan.char, hd, ih]
      · simp [Scan.word, Scan.char, hd]

theorem word_of_pairLexeme (hw : w ∈ pairs) (h : pairLexeme s = none) : Scan.word w s = none := by
  rcases hread : Scan.word w s with _ | ⟨_, r⟩
  · rfl
  have hs := word_eq_some_iff.mp hread
  have htwo : ∀ p ∈ pairs, ∃ a b, p = [a, b] := by simp [pairs]
  obtain ⟨a, b, rfl⟩ := htwo w hw
  rw [hs, List.cons_append, List.cons_append, List.nil_append, pairLexeme, if_pos hw] at h
  cases h

/-- A name test is read wherever a name starts. -/
theorem exists_nameTest (hc : isNameStart c = true) (u : List Char) :
    ∃ r, nameTest (c :: u) = some r := by
  rw [nameTest_of_start hc]
  have hsimple : simpleName (c :: u) =
      some (c :: u.takeWhile isNameChar, u.dropWhile isNameChar) := if_pos hc
  rw [hsimple]
  split
  · exact ⟨_, rfl⟩
  · rw [qualifiedName, hsimple]
    dsimp only [Option.bind_eq_bind, Option.bind_some]
    split <;> exact ⟨_, rfl⟩

theorem quotedLexeme_sound (hc : c ∈ ['"', '\'']) (h : quotedLexeme c s = some (w, u)) :
    s = w ++ u ∧ Lexeme w u := by
  obtain ⟨⟨inside, r⟩, hquoted, heq⟩ := Option.map_eq_some_iff.1 h
  obtain ⟨rfl, rfl⟩ : c :: (inside.toList ++ [c]) = w ∧ r = u := by simpa using heq
  obtain ⟨rfl, hnot⟩ := quoted_sound hquoted
  exact ⟨by simp, .quoted hc hnot⟩

/-- A text is a token and what is behind it. -/
theorem lexeme_sound (h : lexeme s = some (w, u)) : s = w ++ u ∧ Lexeme w u := by
  simp only [lexeme, List.foldr_cons, List.foldr_nil, Scan.orElse, Option.or_eq_some_iff] at h
  rcases h with h | ⟨hname, h⟩
  · obtain ⟨⟨test, r⟩, htest, heq⟩ := Option.map_eq_some_iff.1 h
    obtain ⟨rfl, rfl⟩ : test.canonical = w ∧ r = u := by simpa using heq
    exact nameTest_sound htest
  rcases h with h | ⟨hnumber, h⟩
  · exact numberLexeme_sound h
  rcases h with h | ⟨hdouble, h⟩
  · exact quotedLexeme_sound (by decide) h
  rcases h with h | ⟨hsimple, h⟩
  · exact quotedLexeme_sound (by decide) h
  rcases h with h | ⟨hvariable, h⟩
  · exact variableLexeme_sound h
  rcases h with h | ⟨hpair, h⟩
  · exact pairLexeme_sound h
  unfold singleLexeme at h
  split at h
  · cases h
  next c t =>
    cases h
    have hname : nameTest (c :: u) = none := Option.map_eq_none_iff.1 hname
    refine ⟨rfl, .single ?_ ?_ (numeral_of_numberLexeme hnumber) ?_ ?_ ?_⟩
    · refine Bool.eq_false_iff.mpr fun hc => ?_
      obtain ⟨r, hr⟩ := exists_nameTest hc u
      cases hname.symm.trans hr
    · rintro rfl
      cases hname
    · intro m hm
      simp only [List.mem_cons, List.not_mem_nil, or_false] at hm
      rcases hm with rfl | rfl
      · exact Option.map_eq_none_iff.1 hdouble
      · exact Option.map_eq_none_iff.1 hsimple
    · rintro rfl
      exact Option.map_eq_none_iff.1 hvariable
    · exact fun p hp => word_of_pairLexeme hp hpair

theorem Lexeme.ne_nil (h : Lexeme w u) : w ≠ [] := by
  cases h with
  | star => simp
  | wildcard hp => simp
  | name hw =>
    obtain ⟨c, cs, rfl, -⟩ := hw
    simp
  | qualified hp => simp
  | whole hne => exact hne
  | decimal => simp
  | quoted => simp
  | «variable» => simp
  | pair hw =>
    rintro rfl
    exact absurd hw (by decide)
  | single => simp

/-! ## The tokens of a text -/

theorem skipBlanks_length_le (s : List Char) : (skipBlanks s).length ≤ s.length :=
  (List.dropWhile_sublist _).length_le

theorem lexeme_nil : lexeme [] = none :=
  rfl

/-- Every text that is not empty has a token in front. -/
theorem exists_lexeme (hs : s ≠ []) : ∃ w u, lexeme s = some (w, u) := by
  obtain ⟨c, t, rfl⟩ := List.exists_cons_of_ne_nil hs
  rcases h : lexeme (c :: t) with _ | ⟨w, u⟩
  · simp only [lexeme, List.foldr_cons, List.foldr_nil, Scan.orElse, Option.or_eq_none_iff] at h
    cases h.2.2.2.2.2.2
  · exact ⟨w, u, rfl⟩

/-- The token `w` comes next, and `u` is behind it. -/
def Next (w s u : List Char) : Prop :=
  lexeme (skipBlanks s) = some (w, u)

theorem Next.eq (h : Next w s u) : skipBlanks s = w ++ u :=
  (lexeme_sound h).1

theorem Next.unique (h : Next w s u) (h' : Next v s t) : w = v ∧ u = t :=
  Prod.mk.inj (Option.some.inj (Eq.trans (Eq.symm h) h'))

theorem Next.kind (h : Next w s u) : Lexeme w u :=
  (lexeme_sound h).2

/-- Some token comes next, unless there is none. -/
theorem exists_next (hs : skipBlanks s = c :: t) : ∃ w u, Next (c :: w) s u ∧ t = w ++ u := by
  obtain ⟨v, u, hv⟩ := exists_lexeme (List.ne_nil_of_mem (hs ▸ List.mem_cons_self))
  have hv : Next v s u := hv
  obtain ⟨d, w, rfl⟩ := List.exists_cons_of_ne_nil hv.kind.ne_nil
  obtain ⟨rfl, rfl⟩ := List.cons.inj (hs.symm.trans hv.eq)
  exact ⟨w, u, hv, rfl⟩

theorem Next.length_lt (h : Next w s u) : u.length < s.length := by
  have hle := skipBlanks_length_le s
  have hpos := List.length_pos_iff.mpr h.kind.ne_nil
  rw [h.eq, List.length_append] at hle
  omega

/-- Rounds beyond the length of the text find no further token. -/
theorem upTo_lexeme (n m : Nat) (s : List Char) (hn : s.length ≤ n) (hm : s.length ≤ m) :
    Scan.upTo (fun s => lexeme (skipBlanks s)) n s =
      Scan.upTo (fun s => lexeme (skipBlanks s)) m s := by
  induction n generalizing m s with
  | zero =>
    obtain rfl : s = [] := List.length_eq_zero_iff.mp (Nat.le_zero.mp hn)
    cases m <;> rfl
  | succ n ih =>
    cases m with
    | zero =>
      obtain rfl : s = [] := List.length_eq_zero_iff.mp (Nat.le_zero.mp hm)
      rfl
    | succ m =>
      rcases h : lexeme (skipBlanks s) with _ | ⟨w, u⟩
      · simp only [Scan.upTo, h]
      · have hlt := Next.length_lt h
        simp only [Scan.upTo, h, ih m u (by omega) (by omega)]

theorem Next.tokens (h : Next w s u) : tokens s = w :: tokens u := by
  have hlt := h.length_lt
  obtain ⟨n, hn⟩ := Nat.exists_eq_succ_of_ne_zero (Nat.ne_zero_of_lt hlt)
  unfold Expr.tokens
  rw [hn, ← upTo_lexeme n u.length u (by omega) (Nat.le_refl _)]
  simp only [Scan.upTo, show lexeme (skipBlanks s) = some (w, u) from h]

theorem tokens_of_blank (h : skipBlanks s = []) : tokens s = [] := by
  unfold tokens
  cases s.length <;> simp [Scan.upTo, h, lexeme_nil]

theorem tokens_eq_nil_iff : tokens s = [] ↔ skipBlanks s = [] := by
  refine ⟨fun h => ?_, tokens_of_blank⟩
  by_contra hs
  obtain ⟨w, u, hw⟩ := exists_lexeme hs
  rw [Next.tokens hw] at h
  cases h

theorem tokens_eq_cons_iff {ts : List (List Char)} :
    tokens s = w :: ts ↔ ∃ u, Next w s u ∧ tokens u = ts := by
  constructor
  · intro h
    have hs : skipBlanks s ≠ [] := fun hs => by
      rw [tokens_of_blank hs] at h
      cases h
    obtain ⟨v, u, hv⟩ := exists_lexeme hs
    rw [Next.tokens hv] at h
    obtain ⟨rfl, rfl⟩ := List.cons.inj h
    exact ⟨u, hv, rfl⟩
  · rintro ⟨u, h, rfl⟩
    exact h.tokens

end ReactiveForm.Expr
