import ReactiveForm.Proofs.CommandLine.Cut
import ReactiveForm.Proofs.Form.Reference
import ReactiveForm.Proofs.Number.Digits

/-!
# Texts of changes

A change is read back from the text that its parts are joined to, if all separators in its reference
stand inside of predicates and quotations. References of live nodes are of this kind.
-/

set_option autoImplicit false

namespace ReactiveForm

/-- A reference that a separator behind it can be told from. -/
structure Separable (separator : Char) (reference : String) : Prop where
  trimmed : Text.trimmed reference = reference
  balanced : Balanced separator false reference.toList

variable {separator : Char} {r : String}

/-! ## References of live nodes -/

namespace Expr.Leg

variable {l : Leg} {ls : List Leg}

theorem balanced_name (hseparator : Description.isNameChar separator = false)
    (hl : Description.isName l.name = true) : Balanced separator false l.name.toList := by
  have hname := Description.forall_isNameChar hl
  refine .of_forall (fun c hc => ?_) fun hmem => ?_
  · exact not_mem_enclosingMarks (p := Description.isNameChar) (by decide +kernel) (hname c hc)
  · exact nomatch hseparator.symm.trans (hname separator hmem)

theorem balanced_bracket (separator : Char) (place : Option Nat) :
    Balanced separator false (bracket place) := by
  cases place with
  | none => exact .nil false
  | some k =>
    refine .predicate (.of_forall (fun c hc => ?_) fun _ => rfl) (.nil false)
    exact not_mem_enclosingMarks (p := Char.isDigit) (by decide)
      (Number.forall_isDigit_toDigits k c hc)

/-- The names in a reference hold no separator, and the places stand in brackets. -/
theorem balanced_textAll (hseparator : Description.isNameChar separator = false)
    (hslash : separator ≠ '/') (hls : ∀ l ∈ ls, Description.isName l.name = true) :
    Balanced separator false (textAll ls) := by
  induction ls with
  | nil => exact .nil false
  | cons l ls ih =>
    obtain ⟨hl, hls⟩ := List.forall_mem_cons.mp hls
    have htext : Balanced separator false l.text :=
      (balanced_name hseparator hl).append (balanced_bracket separator l.place)
    rw [textAll_cons]
    exact .plain (by decide) (fun heq => absurd heq.symm hslash) (htext.append (ih hls))

end Expr.Leg

theorem Form.Reachable.separable {f : Form} (h : f.Reachable Definition.Built) {id : NodeId}
    (hid : f.contains id) (hseparator : Description.isNameChar separator = false)
    (hslash : separator ≠ '/') : Separable separator (f.tree.reference id) := by
  have hlive : ∃ n, f.tree.get? id = some n := Tree.contains_iff.mp hid
  have hready := h.ready.1
  have hwellFormed : f.tree.WellFormed := hready.wellFormed fun _ hd => hd.shaped
  have hnamed : f.tree.Throughout Definition.Named :=
    fun x n hn e he => (hready.proper x n hn e he).named
  refine ⟨hwellFormed.trimmed_reference hnamed hlive, ?_⟩
  rw [hwellFormed.reference_eq hlive, String.toList_ofList]
  exact Expr.Leg.balanced_textAll hseparator hslash (hwellFormed.isName_legs hnamed hlive)

/-! ## Parts that are numbers -/

namespace Change

theorem balanced_toString (i : Int) : Balanced ':' false (toString i).toList := by
  have hcolon : ':' ∉ (toString i).toList := Number.not_mem_toString (by decide) (by decide) i
  refine .of_forall (fun c hc => ?_) fun hmem => absurd hmem hcolon
  refine not_mem_enclosingMarks (p := fun c => c.isDigit || c == '-') (by decide) ?_
  simpa using Number.forall_mem_toString i c hc

theorem trim_toString (i : Int) : Text.trim (toString i).toList = (toString i).toList := by
  refine Text.trim_eq_self fun c hc => ?_
  rcases Number.forall_mem_toString i c hc with h | rfl
  · exact Text.isBlank_eq_false (by decide +kernel) h
  · decide

theorem trim_toString_nat (n : Nat) : Text.trim (toString n).toList = (toString n).toList :=
  trim_toString n

theorem readCount_toString {n : Nat} (h : n ≤ maxCount) :
    readCount (some (toString n).toList) = .ok n := by
  rw [readCount, trim_toString_nat, Number.readNat_toString h]
  rfl

theorem readStart_toString {n : Nat} (h : n ≤ maxCount) :
    readStart (some (toString n).toList) = .ok n := by
  rw [readStart, trim_toString_nat, Number.readNat_toString h]
  rfl

theorem readAfter_toString {i : Int} (hlow : -(maxPlace + 1 : Int) ≤ i) (hhigh : i ≤ maxPlace) :
    readAfter (some (toString i).toList) = .ok (some i) := by
  have hletter : 'e' ∉ (toString i).toList := Number.not_mem_toString (by decide) (by decide) i
  have hend : (toString i).toList ≠ ['e', 'n', 'd'] := by
    intro heq
    rw [heq] at hletter
    exact hletter List.mem_cons_self
  have hnone : ((toString i).toList.isEmpty || decide ((toString i).toList = ['e', 'n', 'd']))
      = false := by
    rw [Bool.or_eq_false_iff, decide_eq_false_iff_not]
    exact ⟨List.isEmpty_eq_false_iff.mpr (Number.toString_ne_nil i), hend⟩
  simp only [readAfter, trim_toString, hnone, Bool.false_eq_true, if_false]
  rw [Number.readInt_toString hlow hhigh]
  rfl

/-! ## Parts of a text -/

variable {text : List Char} {rest : List (List Char)} {a : String}

theorem readPair_append (h : Separable '=' r) (v : String) :
    readPair (r ++ "=" ++ v).toList = .ok (r, v) := by
  have htext : (r ++ "=" ++ v).toList = r.toList ++ '=' :: v.toList := by simp
  have hreference : String.ofList (Text.trim r.toList) = r := h.trimmed
  rw [readPair, htext, h.balanced.splitOutside_append (by decide)]
  simp only [splitOutside, hreference, String.ofList_toList]

theorem splitOutside_two (h : Separable ':' r) (ha : Balanced ':' false a.toList) :
    splitOutside ':' 2 (r ++ ":" ++ a).toList = [r.toList, a.toList] := by
  have htext : (r ++ ":" ++ a).toList = r.toList ++ ':' :: a.toList := by simp
  rw [htext, h.balanced.splitOutside_append (by decide), ha.splitOutside_self]

theorem splitOutside_three (h : Separable ':' r) (ha : Balanced ':' false a.toList) (b : String) :
    splitOutside ':' 2 (r ++ ":" ++ a ++ ":" ++ b).toList = [r.toList, a.toList, b.toList] := by
  have htext : (r ++ ":" ++ a ++ ":" ++ b).toList
      = r.toList ++ ':' :: (a.toList ++ ':' :: b.toList) := by simp
  rw [htext, h.balanced.splitOutside_append (by decide), ha.splitOutside_append (by decide)]
  rfl

theorem read_add (h : Text.trimmed r = r) {after : Option Int} {count : Nat}
    (hparts : splitOutside ':' 2 text = r.toList :: rest) (hafter : readAfter rest[0]? = .ok after)
    (hcount : readCount rest[1]? = .ok count) : read .add text = .ok (.add r after count) := by
  have hreference : String.ofList (Text.trim r.toList) = r := h
  simp only [read, hparts, List.headD_cons, List.getElem?_cons_succ, hafter, hcount, hreference]
  rfl

theorem read_remove (h : Text.trimmed r = r) {start count : Nat}
    (hparts : splitOutside ':' 2 text = r.toList :: rest) (hstart : readStart rest[0]? = .ok start)
    (hcount : readCount rest[1]? = .ok count) :
    read .remove text = .ok (.remove r start count) := by
  have hreference : String.ofList (Text.trim r.toList) = r := h
  simp only [read, hparts, List.headD_cons, List.getElem?_cons_succ, hstart, hcount, hreference]
  rfl

/-! ## Reading joined parts -/

/-- A path with an equals sign and a colon in quotation marks, both in a predicate. -/
def quotingPath : String := "/f/r[x='=:']"

theorem separable_quotingPath (h : separator = '=' ∨ separator = ':') :
    Separable separator quotingPath := by
  have hstart : Balanced separator false "/f/r".toList := by
    refine .of_forall (by simp [enclosingMarks]) fun hmem => absurd hmem ?_
    rcases h with rfl | rfl <;> decide +kernel
  have hquoted : Balanced separator true ("x=".toList ++ '\'' :: ("=:".toList ++ '\'' :: [])) :=
    .append (.of_forall (by simp [enclosingMarks]) fun _ => rfl)
      (.quotation (.inl rfl) (by decide +kernel) (.nil true))
  have htext : quotingPath.toList = "/f/r".toList
      ++ '[' :: ("x=".toList ++ '\'' :: ("=:".toList ++ '\'' :: []) ++ ']' :: []) := by
    decide +kernel
  refine ⟨by decide +kernel, ?_⟩
  rw [htext]
  exact hstart.append (.predicate hquoted (.nil false))

end Change

end ReactiveForm
