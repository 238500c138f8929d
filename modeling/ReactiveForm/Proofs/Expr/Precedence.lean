import ReactiveForm.Proofs.Expr.Terse

/-!
# Precedence and grouping

The tiers of the grammar, one for each grade, and what each of them reads of a terse text. Operators
of one tier group to the left: an operand of the same grade on the left is not read on its own but
gathered along with what follows it, which `Gathers` describes.
-/

set_option autoImplicit false

namespace ReactiveForm

/-! ## Operands one after the other -/

/-- A first operand is read off the text and then rounds, each of which joins something to what has
been read before. -/
inductive Gathers {α β : Type} (operand : Rule α) (round : Rule β) (join : α → β → α)
    (s : List Char) : α → List Char → Prop where
  | first {a : α} {t : List Char} :
    (operand s).parsed = some (a, t) → Gathers operand round join s a t
  | next {a : α} {b : β} {t u : List Char} : Gathers operand round join s a t →
    (round t).parsed = some (b, u) → u.length < t.length →
    Gathers operand round join s (join a b) u

namespace Gathers

variable {α β : Type} {operand : Rule α} {round : Rule β} {join : α → β → α} {s t u : List Char}
  {a : α}

theorem parsed_foldl (h : Gathers operand round join s a t) {bs : List β}
    (hmore : Rule.Repeats round t bs u) : ((do
      let first ← operand
      let rest ← Rule.many round
      pure (rest.foldl join first) : Rule α) s).parsed = some (bs.foldl join a, u) := by
  induction h generalizing bs u with
  | first h => exact (Rule.parsed_bind_of_some h).trans (Rule.parsed_bind_of_some hmore.many)
  | next _ hround hlt ih => exact ih (.next hround hlt hmore)

theorem parsed (h : Gathers operand round join s a t) (hstop : (round t).parsed = none) : ((do
      let first ← operand
      let rest ← Rule.many round
      pure (rest.foldl join first) : Rule α) s).parsed = some (a, t) :=
  h.parsed_foldl (.stop hstop)

end Gathers

namespace Expr

open Rule

variable {inner : Rule Expr} {s t u rest : List Char} {e l r : Expr} {op : Operator} {k n : Nat}

/-! ## Tiers -/

/-- The operators of grade `n + 3`. -/
def joint : Nat → Rule Operator
  | 0 => productOperator
  | 1 => sumOperator
  | 2 => orderOperator
  | 3 => equalityOperator
  | 4 => andOperator
  | _ => orOperator

/-- The rule for expressions of a grade and of those that bind stronger. That of grade 8 is `level`. -/
def tier (inner : Rule Expr) : Nat → Rule Expr
  | 0 => pathExpr inner
  | 1 => unionExpr inner
  | 2 => signedExpr inner
  | n + 3 => chain (joint n) (tier inner (n + 2))

/-- An operator of grade `n + 3` with the operand behind it. -/
def round (inner : Rule Expr) (n : Nat) : Rule (Operator × Expr) := do
  let op ← joint n
  let right ← tier inner (n + 2)
  pure (op, right)

theorem joint_mem (n : Nat) : joint n ∈ operators := by
  unfold joint operators
  split <;> simp

theorem exists_grade (op : Operator) : ∃ n, op.grade = n + 3 := by
  cases op <;> exact ⟨_, rfl⟩

theorem joint_between (h : op.grade = n + 3) (u : List Char) :
    (joint n (between op u)).parsed = some (op, ' ' :: u) := by
  cases op <;> cases h <;> rfl

/-- Operators that bind stronger do not read one that binds weaker. -/
theorem joint_refuses (op : Operator) (h : n + 3 < op.grade) (u : List Char) :
    (joint n (between op u)).parsed = none := by
  rcases n with _ | _ | _ | _ | _ | n
  · cases op <;> first | rfl | exact absurd h (by decide)
  · cases op <;> first | rfl | exact absurd h (by decide)
  · cases op <;> first | rfl | exact absurd h (by decide)
  · cases op <;> first | rfl | exact absurd h (by decide)
  · cases op <;> first | rfl | exact absurd h (by decide)
  · have hle := op.grade_le
    omega

/-! ## What may follow -/

/-- Nothing follows that an expression of the grade could take up. -/
structure Ends (k : Nat) (rest : List Char) : Prop where
  path : EndsPath rest
  bar : 1 ≤ k → NotNext '|' rest
  joints : ∀ n, n + 3 ≤ k → (joint n rest).parsed = none

theorem Ends.mono {j : Nat} (h : Ends k rest) (hle : j ≤ k) : Ends j rest where
  path := h.path
  bar hj := h.bar (Nat.le_trans hj hle)
  joints n hn := h.joints n (Nat.le_trans hn hle)

theorem ends_of_closes (h : Closes rest) (k : Nat) : Ends k rest where
  path := endsPath_of_closes h
  bar _ := by
    have hskip := skipBlanks_of_closes h
    rcases h with rfl | ⟨c, t, rfl, hc⟩
    · exact notNext_of_nil rfl
    · refine notNext_of_ne hskip ?_
      rintro rfl
      exact absurd hc (by decide)
  joints n _ := operators_refuse_of_closes h _ (joint_mem n)

theorem ends_between (op : Operator) (u : List Char) (h : k < op.grade) :
    Ends k (between op u) where
  path := endsPath_between op u
  bar _ := notNext_between op u (by decide)
  joints _ hn := joint_refuses op (Nat.lt_of_le_of_lt hn h) u

theorem ends_bar (u : List Char) : Ends 0 (' ' :: '|' :: u) where
  path := endsPath_of_blank (by rw [skipBlanks_space, skipBlanks_cons (by decide)]) (by decide)
  bar h := absurd h (by decide)
  joints _ h := absurd h (by omega)

/-! ## Reading in tiers -/

/-- Signs are read off the text one by one, and a union after the last one. -/
inductive Signed (inner : Rule Expr) : List Char → Expr → List Char → Prop where
  | unsigned {s : List Char} {e : Expr} {t : List Char} : NotNext '-' s →
    (unionExpr inner s).parsed = some (e, t) → Signed inner s e t
  | sign {s u : List Char} {e : Expr} {t : List Char} : skipBlanks s = '-' :: u →
    Signed inner u e t → Signed inner s (.negate e) t

theorem length_skipBlanks_le (s : List Char) : (skipBlanks s).length ≤ s.length :=
  (List.dropWhile_sublist _).length_le

theorem foldl_negate (signs : List Unit) (e : Expr) :
    (() :: signs).foldl (fun e _ => e.negate) e = (signs.foldl (fun e _ => e.negate) e).negate := by
  induction signs generalizing e with
  | nil => rfl
  | cons _ signs ih => exact ih e.negate

theorem Signed.exists_signs (h : Signed inner s e t) : ∃ signs u x, Repeats signRule s signs u ∧
    (unionExpr inner u).parsed = some (x, t) ∧ signs.foldl (fun e _ => e.negate) x = e := by
  induction h with
  | unsigned hsign hread => exact ⟨[], _, _, .stop (signRule_of_notNext hsign), hread, rfl⟩
  | @sign s u e t hs _ ih =>
    obtain ⟨signs, v, x, hrepeats, hread, rfl⟩ := ih
    have hsign : (signRule s).parsed = some ((), u) := by
      rw [signRule, parsed_token, hs, char_cons]
    have hlt : u.length < s.length := by
      have hle := length_skipBlanks_le s
      rw [hs, List.length_cons] at hle
      omega
    exact ⟨() :: signs, v, x, .next hsign hlt hrepeats, hread, foldl_negate signs x⟩

theorem Signed.parsed (h : Signed inner s e t) : (signedExpr inner s).parsed = some (e, t) := by
  obtain ⟨signs, u, x, hrepeats, hread, rfl⟩ := h.exists_signs
  exact (parsed_bind_of_some hrepeats.many).trans (parsed_bind_of_some hread)

/-- The tier reads the expression off the text and may go on from there. -/
def Reads (inner : Rule Expr) : Nat → List Char → Expr → List Char → Prop
  | 0 => fun s e t => (pathExpr inner s).parsed = some (e, t)
  | 1 => Gathers (pathExpr inner) (nextOperand inner) .union
  | 2 => Signed inner
  | n + 3 => Gathers (tier inner (n + 2)) (round inner n) fun l (op, r) => .binary op l r

/-- The tier comes to its end where nothing follows that it could take up. -/
theorem Reads.tier (h : Reads inner k s e t) (hends : Ends k t) :
    (tier inner k s).parsed = some (e, t) := by
  rcases k with _ | _ | _ | n
  · exact h
  · exact Gathers.parsed h (nextOperand_of_notNext (hends.bar (Nat.le_refl 1)))
  · exact Signed.parsed h
  · exact Gathers.parsed h (parsed_bind_of_none (hends.joints n (Nat.le_refl _)))

theorem reads_of_tier (h : (tier inner k s).parsed = some (e, t)) (hsign : k = 1 → NotNext '-' s) :
    Reads inner (k + 1) s e t := by
  rcases k with _ | _ | k
  · exact .first h
  · exact .unsigned (hsign rfl) h
  · exact .first h

/-- What a tier reads is read by the tiers above it. -/
theorem Reads.raise {j : Nat} (h : Reads inner j s e t) (hle : j ≤ k) (hends : Ends (k - 1) t)
    (hsign : j ≤ 1 → NotNext '-' s) : Reads inner k s e t := by
  induction hle with
  | refl => exact h
  | @step k hle ih =>
    have hle : j ≤ k := hle
    refine reads_of_tier ((ih (hends.mono (by omega))).tier hends) fun hk => hsign ?_
    omega

/-! ## First characters -/

variable {numeral : Float → List Char}

/-- The text starts with no blank, and with no sign where the grade does not allow one. -/
structure Starts (grade : Nat) (text : List Char) : Prop where
  begins : Begins text
  unsigned : grade ≤ 1 → text.head? ≠ some '-'

theorem starts_cons {c : Char} (hc : Number.isPadding c = false) (hne : c ∉ [')', '-']) (k : Nat)
    (t : List Char) : Starts k (c :: t) := by
  simp only [List.mem_cons, List.not_mem_nil, or_false, not_or] at hne
  exact ⟨begins_cons hc hne.1 t, fun _ => by simp [hne.2]⟩

theorem Starts.append (h : Starts k s) (t : List Char) : Starts k (s ++ t) := by
  obtain ⟨c, u, rfl, hc, hne⟩ := h.begins
  exact ⟨begins_cons hc hne _, h.unsigned⟩

theorem Starts.notNext (h : Starts k s) (hk : k ≤ 1) (ht : skipBlanks t = s ++ rest) :
    NotNext '-' t := by
  obtain ⟨c, u, rfl, -⟩ := h.begins
  refine notNext_of_ne ht fun hc => h.unsigned hk ?_
  rw [hc]
  rfl

theorem starts_name {name : List Char} (h : IsQualifiedName name) (k : Nat) : Starts k name := by
  refine ⟨h.begins, fun _ => ?_⟩
  obtain ⟨p, q, rfl, ⟨c, cs, rfl, hc, -⟩, -⟩ := h.simple_prefix
  intro hhead
  obtain rfl : c = '-' := by simpa using hhead
  exact absurd hc (by decide)

theorem starts_inPlace (h : Starts e.grade s) (k : Nat) : Starts k (inPlace k e s) := by
  unfold inPlace
  split
  next hle => exact ⟨h.begins, fun hk => h.unsigned (Nat.le_trans hle hk)⟩
  next => exact starts_cons (by decide) (by decide) k _

theorem head_of_unsigned? {x : Float} {cs : List Char} (h : Number.unsigned? cs = some x) :
    ∃ d ds, cs = d :: ds ∧ Number.isPadding d = false ∧ d ∉ [')', '-', '/'] := by
  obtain ⟨d, ds, rfl, hd | rfl⟩ := unsigned?_head h
  · refine ⟨d, ds, rfl, Number.isPadding_of_isDigit hd, ?_⟩
    simp only [List.mem_cons, List.not_mem_nil, or_false]
    rintro (rfl | rfl | rfl) <;> exact absurd hd (by decide)
  · exact ⟨'.', ds, rfl, by decide, by decide⟩

theorem Combined.starts (h : e.Combined numeral) : Starts e.grade (e.terse numeral) := by
  induction h with
  | name hname => exact starts_name hname 0
  | number hx =>
    obtain ⟨d, ds, hds, hd, hne⟩ := head_of_unsigned? hx
    rw [terse, hds]
    exact starts_cons hd (by simp_all) _ ds
  | @text v _ =>
    obtain ⟨mark, hquote, hmark⟩ := quote_eq v
    rw [terse, hquote]
    rcases hmark with ⟨rfl, -⟩ | ⟨rfl, -⟩ <;> exact starts_cons (by decide) (by decide) _ _
  | bound _ => exact starts_cons (by decide) (by decide) _ _
  | root => exact starts_cons (by decide) (by decide) _ _
  | binary op _ _ ihl _ => exact (starts_inPlace ihl op.grade).append _
  | negate _ _ => exact ⟨begins_cons (by decide) (by decide) _, fun h => absurd (show 2 ≤ 1 from h) (by decide)⟩
  | union _ _ ihl _ => exact (starts_inPlace ihl 1).append _

/-! ## Reading terse text -/

/-- Rules for brackets as deep as the text is long read it up to what may follow. -/
def ReadsTerse (e : Expr) (text : List Char) : Prop :=
  ∀ n s rest, text.length ≤ n → skipBlanks s = text ++ rest → Ends (e.grade - 1) rest →
    Reads (expr n) e.grade s e rest

theorem pathExpr_inParentheses (h : ReadsTerse e t) (hstarts : Starts e.grade t)
    (hgrade : e.grade ≤ 8) (hn : t.length < n) (hs : skipBlanks s = '(' :: (t ++ ')' :: rest))
    (hrest : EndsPath rest) : (pathExpr (expr n) s).parsed = some (e, rest) := by
  obtain ⟨m, rfl⟩ := Nat.exists_eq_succ_of_ne_zero (by omega : n ≠ 0)
  have hskip := hstarts.begins.skipBlanks (')' :: rest)
  have hclose := ends_of_closes (closes_cons (c := ')') (by decide) rest)
  have hread := (h m _ _ (by omega) hskip (hclose _)).raise hgrade (hclose _)
    fun hk => hstarts.notNext hk hskip
  have hinside : (expr (m + 1) (t ++ ')' :: rest)).parsed = some (e, ')' :: rest) :=
    hread.tier (hclose 8)
  have hparsed : Rereads (pathExpr (expr (m + 1)) s).parsed (some e) rest :=
    pathExpr_parentheses hs hinside hrest
  exact hparsed

/-- In its place an expression is read by the tier of that place. -/
theorem reads_inPlace (h : ReadsTerse e t) (hstarts : Starts e.grade t)
    (hn : (inPlace k e t).length ≤ n) (hs : skipBlanks s = inPlace k e t ++ rest)
    (hends : Ends (k - 1) rest) : Reads (expr n) k s e rest := by
  have hinPlace := starts_inPlace hstarts k
  unfold inPlace at hn hs hinPlace
  split at hs
  next hle =>
    rw [if_pos hle] at hn
    exact (h n s rest hn hs (hends.mono (by omega))).raise hle hends
      fun hk => hstarts.notNext hk hs
  next hlt =>
    rw [if_neg hlt, List.length_cons, List.length_append] at hn
    have hs : skipBlanks s = '(' :: (t ++ ')' :: rest) := by simpa using hs
    have hpath : Reads (expr n) 0 s e rest :=
      pathExpr_inParentheses h hstarts e.grade_le (by omega) hs hends.path
    exact hpath.raise (Nat.zero_le k) hends fun _ => notNext_of_ne hs (by decide)

theorem between_append (op : Operator) (u v : List Char) :
    between op u ++ v = between op (u ++ v) := by
  simp [between]

theorem reads_binary {u v : List Char} (hl : ReadsTerse l u) (hlstarts : Starts l.grade u)
    (hr : ReadsTerse r v) (hrstarts : Starts r.grade v) (op : Operator) :
    ReadsTerse (.binary op l r) (inPlace op.grade l u ++ between op (inPlace (op.grade - 1) r v)) := by
  intro n s rest hn hs hends
  have hends : Ends (op.grade - 1) rest := hends
  have hlength : (inPlace op.grade l u).length + (inPlace (op.grade - 1) r v).length ≤ n := by
    simp only [between, List.length_append, List.length_cons] at hn
    omega
  rw [List.append_assoc, between_append] at hs
  obtain ⟨m, hm⟩ := exists_grade op
  have hleft : Reads (expr n) op.grade s l _ := reads_inPlace hl hlstarts (by omega) hs
    (ends_between op _ (by omega))
  have hright : Reads (expr n) (op.grade - 1) (' ' :: (inPlace (op.grade - 1) r v ++ rest)) r rest :=
    reads_inPlace hr hrstarts (by omega)
      ((skipBlanks_space _).trans ((starts_inPlace hrstarts _).begins.skipBlanks rest))
      (hends.mono (by omega))
  have hoperand := hright.tier hends
  have hround : ((round (expr n) m) (between op (inPlace (op.grade - 1) r v ++ rest))).parsed
      = some ((op, r), rest) := by
    refine (parsed_bind_of_some (joint_between hm _)).trans (parsed_bind_of_some ?_)
    rw [hm] at hoperand ⊢
    exact hoperand
  have hgathers : Reads (expr n) (m + 3) s l
      (between op (inPlace (op.grade - 1) r v ++ rest)) := by
    rw [← hm]
    exact hleft
  have hlt : rest.length < (between op (inPlace (op.grade - 1) r v ++ rest)).length := by
    simp only [between, List.length_append, List.length_cons]
    omega
  change Reads (expr n) op.grade s (.binary op l r) rest
  rw [hm]
  exact Gathers.next hgathers hround hlt

theorem reads_union {u v : List Char} (hl : ReadsTerse l u) (hlstarts : Starts l.grade u)
    (hr : ReadsTerse r v) (hrstarts : Starts r.grade v) :
    ReadsTerse (.union l r) (inPlace 1 l u ++ ' ' :: '|' :: ' ' :: inPlace 0 r v) := by
  intro n s rest hn hs hends
  have hlength : (inPlace 1 l u).length + (inPlace 0 r v).length ≤ n := by
    simp only [List.length_append, List.length_cons] at hn
    omega
  have hs : skipBlanks s = inPlace 1 l u ++ ' ' :: '|' :: ' ' :: (inPlace 0 r v ++ rest) := by
    simpa using hs
  have hleft : Reads (expr n) 1 s l _ := reads_inPlace hl hlstarts (by omega) hs (ends_bar _)
  have hright : Reads (expr n) 0 (' ' :: (inPlace 0 r v ++ rest)) r rest :=
    reads_inPlace hr hrstarts (by omega)
      ((skipBlanks_space _).trans ((starts_inPlace hrstarts _).begins.skipBlanks rest)) hends
  have hbar : skipBlanks (' ' :: '|' :: ' ' :: (inPlace 0 r v ++ rest))
      = '|' :: ' ' :: (inPlace 0 r v ++ rest) := by
    rw [skipBlanks_space, skipBlanks_cons (by decide)]
  have hround := (nextOperand_eq (expr n) hbar).trans hright
  have hlt : rest.length < (' ' :: '|' :: ' ' :: (inPlace 0 r v ++ rest)).length := by
    simp only [List.length_append, List.length_cons]
    omega
  exact Gathers.next hleft hround hlt

theorem reads_negate (h : ReadsTerse e t) (hstarts : Starts e.grade t) :
    ReadsTerse (.negate e) ('-' :: inPlace 2 e t) := by
  intro n s rest hn hs hends
  have hlength : (inPlace 2 e t).length ≤ n := by
    rw [List.length_cons] at hn
    omega
  have hread : Reads (expr n) 2 (inPlace 2 e t ++ rest) e rest :=
    reads_inPlace h hstarts hlength ((starts_inPlace hstarts 2).begins.skipBlanks rest) hends
  exact Signed.sign hs hread

theorem readsTerse_of_operand (hgrade : e.grade = 0)
    (h : ∀ n s rest, t.length ≤ n → skipBlanks s = t ++ rest → EndsPath rest →
      (pathExpr (expr n) s).parsed = some (e, rest)) : ReadsTerse e t := by
  intro n s rest hn hs hends
  rw [hgrade]
  exact h n s rest hn hs hends.path

theorem Combined.reads (h : e.Combined numeral) : ReadsTerse e (e.terse numeral) := by
  induction h with
  | name hname =>
    exact readsTerse_of_operand rfl fun n s rest _ hs hrest => pathExpr_name hname hs hrest
  | number hx =>
    refine readsTerse_of_operand rfl fun n s rest _ hs hrest => ?_
    obtain ⟨d, ds, hds, _, hne⟩ := head_of_unsigned? hx
    have hslash : NotNext '/' s := by
      refine notNext_of_ne (d := d) (t := ds ++ rest) ?_ (by simp_all)
      rw [hs, terse, hds]
      rfl
    exact pathExpr_of_primary hslash (primary_number hx hs hrest.name) hrest
  | text hv =>
    refine readsTerse_of_operand rfl fun n s rest _ hs hrest => ?_
    have hread : ReadsOperand (expr n) (.text _) :=
      readsOperand_text (by simpa only [Proper] using hv)
    exact hread.reads s rest hs hrest
  | bound hname =>
    refine readsTerse_of_operand rfl fun n s rest _ hs hrest => ?_
    have hread : ReadsOperand (expr n) (.variable _) := readsOperand_variable hname
    exact hread.reads s rest hs hrest
  | root =>
    refine readsTerse_of_operand rfl fun n s rest hn hs hrest => ?_
    exact (readsOperand_root n hn).reads s rest hs hrest
  | binary op hl hr ihl ihr => exact reads_binary ihl hl.starts ihr hr.starts op
  | negate he ih => exact reads_negate ih he.starts
  | union hl hr ihl ihr => exact reads_union ihl hl.starts ihr hr.starts

/-- Whatever operators make of names, literals, variables and the root is read off the text that has
parentheses only where precedence and the grouping to the left ask for them. -/
theorem read_terse {numeral : Float → List Char} {e : Expr} (h : e.Combined numeral) :
    read (String.ofList (e.terse numeral)) = .ok e := by
  have hchars : (String.ofList (e.terse numeral)).toList = e.terse numeral := String.toList_ofList
  have hskip : skipBlanks (e.terse numeral) = e.terse numeral ++ [] := by
    have hbegins := h.starts.begins.skipBlanks []
    rwa [List.append_nil] at hbegins ⊢
  have hends : ∀ k, Ends k [] := ends_of_closes (.inl rfl)
  have hread : Reads (expr (e.terse numeral).length) 8 (e.terse numeral) e [] :=
    (h.reads _ _ _ (Nat.le_refl _) hskip (hends _)).raise e.grade_le (hends _)
      fun hk => h.starts.notNext hk hskip
  have hwhole : (whole (e.terse numeral)).parsed = some (e, []) :=
    (parsed_bind_of_some (hread.tier (hends 8))).trans
      (parsed_bind_of_some (p := token endOfText) rfl)
  unfold read
  rw [hchars]
  cases hattempt : whole (e.terse numeral) with
  | mk parsed stuck =>
    rw [hattempt] at hwhole
    obtain rfl : parsed = some (e, []) := hwhole
    rfl

/-- Names of operators, axes and node types are names where an operand is expected. -/
theorem read_terse_names :
    let e : Expr := .binary .or
      (.binary .sub (.path .context [⟨.child, .name "or", []⟩])
        (.binary .sub
          (.negate (.binary .add (.number (Number.ofDigits ['1'] []))
            (.path .context [⟨.child, .name "a:div", []⟩])))
          (.path .context [⟨.child, .name "child", []⟩])))
      (.binary .mul (.path .context [⟨.child, .name "text", []⟩])
        (.union (.variable "x") (.path .root [])))
    read "or - (-(1 + a:div) - child) or text * $x | (/)" = .ok e := by
  intro e
  have hname {n : String} (h : qualifiedName n.toList = some (n, [])) : IsQualifiedName n.toList :=
    (qualifiedName_sound h).1
  have hone : Number.unsigned? ['1'] = some (Number.ofDigits ['1'] []) := by simp [Number.unsigned?]
  have htext : e.terse (fun _ => ['1']) = "or - (-(1 + a:div) - child) or text * $x | (/)".toList := by
    decide +kernel
  have hcombined : e.Combined fun _ => ['1'] :=
    .binary .or
      (.binary .sub (.name (hname (by decide)))
        (.binary .sub (.negate (.binary .add (.number hone) (.name (hname (by decide)))))
          (.name (hname (by decide)))))
      (.binary .mul (.name (hname (by decide))) (.union (.bound (hname (by decide))) .root))
  have hread := read_terse hcombined
  rwa [htext, String.ofList_toList] at hread

end Expr

end ReactiveForm
