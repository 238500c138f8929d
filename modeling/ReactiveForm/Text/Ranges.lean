/-!
# Ranges of code points

Membership in a sorted list of ranges, decided by halving it.
-/

set_option autoImplicit false

namespace ReactiveForm.Text

/-- Whether a code point lies in one of the sorted ranges from `lo` up to, not with, `hi`. The
span is halved in each of at most `steps` steps. -/
def inRanges (ranges : Array (Nat × Nat)) (n : Nat) : (steps lo hi : Nat) → Bool
  | 0, _, _ => false
  | steps + 1, lo, hi =>
    if hi ≤ lo then false
    else
      let mid := (lo + hi) / 2
      match ranges[mid]? with
      | none => false
      | some (first, last) =>
        if n < first then inRanges ranges n steps lo mid
        else if last < n then inRanges ranges n steps (mid + 1) hi
        else true

end ReactiveForm.Text
