import Mathlib.Data.List.Basic
import ReactiveForm.Text.Blank

/-!
# Words

The words of a text are cut at blanks. Words that are joined by single spaces come apart again.
-/

set_option autoImplicit false

namespace ReactiveForm.Text

/-- A word that can be told from what stands next to it: it is not empty, and without blanks. -/
structure IsWord (w : String) : Prop where
  ne_empty : w ≠ ""
  unbroken : ∀ c ∈ w.toList, isBlank c = false

variable {w : String} {ws : List String}

theorem wordsFrom_append {cs : List Char} (hcs : ∀ c ∈ cs, isBlank c = false)
    (word rest : List Char) : wordsFrom word (cs ++ rest) = wordsFrom (cs.reverse ++ word) rest := by
  induction cs generalizing word with
  | nil => rfl
  | cons c cs ih =>
    obtain ⟨hc, hcs⟩ := List.forall_mem_cons.mp hcs
    rw [List.cons_append, wordsFrom, hc, if_neg (by simp), ih hcs, List.reverse_cons,
      List.append_assoc]
    rfl

theorem wordsFrom_space (hw : IsWord w) (rest : List Char) :
    wordsFrom [] (w.toList ++ ' ' :: rest) = w.toList :: wordsFrom [] rest := by
  have hne : w.toList.reverse ≠ [] := by simpa using hw.ne_empty
  rw [wordsFrom_append hw.unbroken, List.append_nil, wordsFrom, if_pos (by decide),
    if_neg (by simpa using hne), List.reverse_reverse]

theorem wordsFrom_end (hw : IsWord w) : wordsFrom [] w.toList = [w.toList] := by
  have hne : w.toList.reverse ≠ [] := by simpa using hw.ne_empty
  have happend := wordsFrom_append hw.unbroken [] []
  rw [List.append_nil, List.append_nil] at happend
  rw [happend, wordsFrom, if_neg (by simpa using hne), List.reverse_reverse]

theorem wordsFrom_intercalate (hws : ∀ w ∈ ws, IsWord w) :
    wordsFrom [] ([' '].intercalate (ws.map String.toList)) = ws.map String.toList := by
  induction ws with
  | nil => rfl
  | cons w ws ih =>
    obtain ⟨hw, hws⟩ := List.forall_mem_cons.mp hws
    cases ws with
    | nil =>
      simp only [List.map_cons, List.map_nil, List.intercalate_singleton]
      exact wordsFrom_end hw
    | cons v vs =>
      have hrest := ih hws
      simp only [List.map_cons, List.intercalate_cons_cons] at hrest ⊢
      rw [List.append_assoc, List.singleton_append, wordsFrom_space hw, hrest]

/-- Words that are joined by spaces come apart again. -/
theorem words_intercalate (hws : ∀ w ∈ ws, IsWord w) : words (" ".intercalate ws) = ws := by
  have hspace : " ".toList = [' '] := rfl
  rw [words, String.toList_intercalate, hspace, wordsFrom_intercalate hws, List.map_map]
  simp

end ReactiveForm.Text
