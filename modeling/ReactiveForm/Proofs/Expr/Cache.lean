import ReactiveForm.Expr.Cache
import ReactiveForm.Proofs.Distinct

/-!
# Kept expressions are those of their texts

A store of expressions only ever takes in what a text is read as. So its answers are those that
reading the text anew would give. It keeps the texts used most recently: list all texts that are
expressions, each once and the latest first, and as many of them are kept as there is room for,
however texts are repeated and refused in between.
-/

set_option autoImplicit false

namespace ReactiveForm.ExprCache

/-- What is kept for a text is what the text is read as. -/
def Faithful (c : ExprCache) : Prop := ∀ p ∈ c.entries, Expr.read p.1 = .ok p.2

theorem faithful_ofCapacity (capacity : Nat) : (ofCapacity capacity).Faithful :=
  fun _ hp => absurd hp List.not_mem_nil

variable {c : ExprCache} {text : String} {e : Expr}

theorem Faithful.read_of_lookup (h : c.Faithful) (hlookup : c.entries.lookup text = some e) :
    Expr.read text = .ok e := by
  obtain ⟨before, after, hsplit, _⟩ := List.lookup_eq_some_iff.mp hlookup
  exact h (text, e) (by rw [hsplit]; exact List.mem_append_right _ List.mem_cons_self)

/-- Whether a text is kept or read anew, the answer is the same. -/
theorem Faithful.read_eq (h : c.Faithful) (text : String) : (c.read text).1 = Expr.read text := by
  unfold read
  cases hlookup : c.entries.lookup text with
  | some e => exact (h.read_of_lookup hlookup).symm
  | none => cases Expr.read text <;> rfl

theorem Faithful.read (h : c.Faithful) (text : String) : (c.read text).2.Faithful := by
  unfold ExprCache.read
  cases hlookup : c.entries.lookup text with
  | some e =>
    refine List.forall_mem_cons.mpr ⟨h.read_of_lookup hlookup, fun p hp => ?_⟩
    exact h p (List.mem_filter.mp hp).1
  | none =>
    cases hread : Expr.read text with
    | error => exact h
    | ok e =>
      intro p hp
      rcases List.mem_cons.mp (List.mem_of_mem_take hp) with rfl | hp
      · exact hread
      · exact h p hp

/-! ## What is kept -/

/-- The store after texts have been read, one after the other. -/
def after (c : ExprCache) (texts : List String) : ExprCache :=
  texts.foldl (fun c text => (c.read text).2) c

/-- The texts that are expressions, each of them once, the one used last in front. -/
def recent (texts : List String) : List String :=
  (texts.filter fun text => (Expr.read text).isOk).reverse.eraseDups

def keys (c : ExprCache) : List String := c.entries.map Prod.fst

theorem recent_snoc_of_ok {texts : List String} (h : Expr.read text = .ok e) :
    recent (texts ++ [text]) = text :: (recent texts).filter (· != text) := by
  have hread : (Expr.read text).isOk = true := by rw [h]; rfl
  unfold recent
  rw [List.filter_append, List.filter_singleton, hread, cond_true, List.reverse_append,
    List.reverse_singleton, List.singleton_append, List.eraseDups_cons, ← eraseDups_filter]
  rfl

theorem recent_snoc_of_error {texts : List String} {error : SyntaxError}
    (h : Expr.read text = .error error) : recent (texts ++ [text]) = recent texts := by
  have hread : (Expr.read text).isOk = false := by rw [h]; rfl
  unfold recent
  rw [List.filter_append, List.filter_singleton, hread, cond_false, List.append_nil]

theorem lookup_eq_none_iff : c.entries.lookup text = none ↔ text ∉ c.keys := by
  rw [List.lookup_eq_none_iff, keys, List.mem_map]
  constructor
  · rintro h ⟨p, hp, rfl⟩
    simpa using h p hp
  · intro h p hp
    apply bne_iff_ne.mpr
    rintro rfl
    exact h ⟨p, hp, rfl⟩

theorem mem_keys_of_lookup (h : c.entries.lookup text = some e) : text ∈ c.keys := by
  by_contra hnot
  exact nomatch h.symm.trans (lookup_eq_none_iff.mpr hnot)

/-- The store has room for so many texts and keeps those used most recently. -/
structure Keeps (room : Nat) (texts : List String) (c : ExprCache) : Prop where
  room_pos : 0 < room
  capacity : c.capacity = room
  faithful : c.Faithful
  keys : c.keys = (recent texts).take room
  counted : c.hits + c.misses = texts.length

theorem keeps_ofCapacity (capacity : Nat) : Keeps (max capacity 1) [] (ofCapacity capacity) where
  room_pos := Nat.lt_of_lt_of_le Nat.one_pos (Nat.le_max_right capacity 1)
  capacity := rfl
  faithful := faithful_ofCapacity capacity
  keys := by simp [ExprCache.keys, recent, ofCapacity]
  counted := rfl

namespace Keeps

variable {room : Nat} {texts : List String} (h : Keeps room texts c)

include h

theorem size_le : c.size ≤ room := by
  have hlength : c.size = c.keys.length := (List.length_map _).symm
  rw [hlength, h.keys]
  exact List.length_take_le room _

theorem of_hit (hlookup : c.entries.lookup text = some e) :
    Keeps room (texts ++ [text]) (c.read text).2 := by
  have hread := h.faithful.read_of_lookup hlookup
  have hmem : text ∈ (recent texts).take room := h.keys ▸ mem_keys_of_lookup hlookup
  refine ⟨h.room_pos, ?_, h.faithful.read text, ?_, ?_⟩
  · simp only [read, hlookup]
    exact h.capacity
  · have hkeys : (c.read text).2.keys = text :: c.keys.filter (· != text) := by
      simp only [read, hlookup, ExprCache.keys, List.map_cons, List.filter_map]
      rfl
    obtain ⟨n, rfl⟩ := Nat.exists_eq_succ_of_ne_zero (Nat.ne_of_gt h.room_pos)
    have hnodup : (recent texts).Nodup := nodup_eraseDups _
    rw [hkeys, h.keys, recent_snoc_of_ok hread, List.take_succ_cons,
      take_filter_of_mem hnodup hmem]
  · simp only [read, hlookup, List.length_append, List.length_singleton]
    have hcounted := h.counted
    omega

theorem of_read (hlookup : c.entries.lookup text = none)
    (hread : Expr.read text = .ok e) : Keeps room (texts ++ [text]) (c.read text).2 := by
  have hnot : text ∉ (recent texts).take room := h.keys ▸ lookup_eq_none_iff.mp hlookup
  refine ⟨h.room_pos, ?_, h.faithful.read text, ?_, ?_⟩
  · simp only [read, hlookup, hread]
    exact h.capacity
  · have hkeys : (c.read text).2.keys = (text :: c.keys).take room := by
      simp only [read, hlookup, hread, ExprCache.keys, List.map_take, List.map_cons, h.capacity]
    obtain ⟨n, rfl⟩ := Nat.exists_eq_succ_of_ne_zero (Nat.ne_of_gt h.room_pos)
    have hfront : text ∉ (recent texts).take n := fun hmem =>
      hnot (List.take_subset_take_left _ (Nat.le_succ n) hmem)
    -- the entry that falls off at the end is the one used least recently
    rw [hkeys, h.keys, recent_snoc_of_ok hread, List.take_succ_cons, List.take_succ_cons,
      take_filter_of_not_mem hfront, List.take_take, Nat.min_eq_left (Nat.le_succ n)]
  · simp only [read, hlookup, hread, List.length_append, List.length_singleton]
    have hcounted := h.counted
    omega

theorem read_of_error {error : SyntaxError} (hread : Expr.read text = .error error) :
    (c.read text).2 = { c with misses := c.misses + 1 } := by
  have hlookup : c.entries.lookup text = none := by
    cases hlookup : c.entries.lookup text with
    | none => rfl
    | some e => exact nomatch (h.faithful.read_of_lookup hlookup).symm.trans hread
  simp only [read, hlookup, hread]

theorem of_error {error : SyntaxError} (hread : Expr.read text = .error error) :
    Keeps room (texts ++ [text]) (c.read text).2 := by
  refine ⟨h.room_pos, ?_, h.faithful.read text, ?_, ?_⟩
  · rw [h.read_of_error hread]
    exact h.capacity
  · rw [h.read_of_error hread, recent_snoc_of_error hread]
    exact h.keys
  · rw [h.read_of_error hread, List.length_append, List.length_singleton]
    have hcounted := h.counted
    dsimp only
    omega

theorem read (text : String) : Keeps room (texts ++ [text]) (c.read text).2 := by
  cases hlookup : c.entries.lookup text with
  | some e => exact h.of_hit hlookup
  | none =>
    cases hread : Expr.read text with
    | ok e => exact h.of_read hlookup hread
    | error error => exact h.of_error hread

/-- A text counts as found exactly when it is kept. -/
theorem hits_read (text : String) :
    (c.read text).2.hits
      = if text ∈ (recent texts).take room then c.hits + 1 else c.hits := by
  rw [← h.keys]
  cases hlookup : c.entries.lookup text with
  | some e =>
    simp only [ExprCache.read, hlookup, if_pos (mem_keys_of_lookup hlookup)]
  | none =>
    rw [if_neg (lookup_eq_none_iff.mp hlookup)]
    cases hread : Expr.read text <;> simp only [ExprCache.read, hlookup, hread]

end Keeps

theorem Keeps.after {room : Nat} {before : List String}
    (h : Keeps room before c) (texts : List String) :
    Keeps room (before ++ texts) (c.after texts) := by
  induction texts generalizing c before with
  | nil =>
    rw [List.append_nil]
    exact h
  | cons text texts ih =>
    have hnext := ih (h.read text)
    rw [List.append_assoc, List.singleton_append] at hnext
    exact hnext

theorem keeps_after (capacity : Nat) (texts : List String) :
    Keeps (max capacity 1) texts ((ofCapacity capacity).after texts) :=
  (keeps_ofCapacity capacity).after texts

/-- Each answer of a store that starts out empty is what the text is read as. It is found in the
store exactly when the text is among the most recent ones that there is room for, and these are all
that is kept. A text that is refused is counted and leaves no other trace. -/
theorem answers_and_keeps_most_recent (capacity : Nat) (before : List String) (text : String) :
    let c := (ofCapacity capacity).after before
    let kept := (recent before).take (max capacity 1)
    (c.read text).1 = Expr.read text ∧
      c.hits + c.misses = before.length ∧
      c.keys = kept ∧ c.size ≤ max capacity 1 ∧
      (c.read text).2.hits = (if text ∈ kept then c.hits + 1 else c.hits) ∧
      (c.read text).2.misses = (if text ∈ kept then c.misses else c.misses + 1) ∧
      ∀ error, Expr.read text = .error error →
        (c.read text).2 = { c with misses := c.misses + 1 } := by
  intro c kept
  have h : Keeps (max capacity 1) before c := keeps_after capacity before
  have hnext := h.read text
  have hhits : (c.read text).2.hits = if text ∈ kept then c.hits + 1 else c.hits :=
    h.hits_read text
  refine ⟨h.faithful.read_eq text, h.counted, h.keys, h.size_le, hhits, ?_, ?_⟩
  · have hcounted := h.counted
    have hcounted' : (c.read text).2.hits + (c.read text).2.misses = before.length + 1 := by
      simpa using hnext.counted
    split at hhits
    next hmem => rw [if_pos hmem]; omega
    next hmem => rw [if_neg hmem]; omega
  · intro error hread
    exact h.read_of_error hread

/-- With room for two texts, the one that has been used again is kept and the other one is not. -/
theorem answers_and_keeps_most_recent_two :
    let c := (ofCapacity 2).after ["1", "2", "1", "3", ")"]
    c.keys = ["3", "1"] ∧ (c.read "1").2.hits = c.hits + 1 ∧ (c.read "2").2.hits = c.hits ∧
      (∃ error, Expr.read ")" = .error error) ∧
      (c.read ")").2 = { c with misses := c.misses + 1 } := by
  intro c
  have hkept : (recent ["1", "2", "1", "3", ")"]).take (max 2 1) = ["3", "1"] := by decide +kernel
  have hrefused : (Expr.read ")").isOk = false := by decide +kernel
  have hfirst := answers_and_keeps_most_recent 2 ["1", "2", "1", "3", ")"] "1"
  have hsecond := answers_and_keeps_most_recent 2 ["1", "2", "1", "3", ")"] "2"
  have hlast := answers_and_keeps_most_recent 2 ["1", "2", "1", "3", ")"] ")"
  rw [hkept] at hfirst hsecond hlast
  cases hread : Expr.read ")" with
  | ok e => rw [hread] at hrefused; cases hrefused
  | error error =>
    exact ⟨hfirst.2.2.1, hfirst.2.2.2.2.1, hsecond.2.2.2.2.1, ⟨error, rfl⟩,
      hlast.2.2.2.2.2.2 error hread⟩

end ReactiveForm.ExprCache
