/-!
# Tables

Lists of pairs read as tables: the first pair with a key gives its entry. An entry that is set
replaces the one before.
-/

set_option autoImplicit false

namespace ReactiveForm

abbrev Table (κ ν : Type) := List (κ × ν)

namespace Table

variable {κ ν : Type} [DecidableEq κ]

def get? (t : Table κ ν) (k : κ) : Option ν :=
  (t.find? fun p => p.1 = k).map fun p => p.2

/-- The table without the keys for which `drop` holds. -/
def without (t : Table κ ν) (drop : κ → Bool) : Table κ ν :=
  t.filter fun p => !drop p.1

def set (t : Table κ ν) (k : κ) (v : ν) : Table κ ν :=
  (k, v) :: t.without (· = k)

theorem get?_cons (t : Table κ ν) (k l : κ) (v : ν) :
    get? ((k, v) :: t) l = if k = l then some v else t.get? l := by
  by_cases h : k = l <;> simp [get?, h]

theorem get?_without (t : Table κ ν) (drop : κ → Bool) (k : κ) :
    (t.without drop).get? k = if drop k then none else t.get? k := by
  induction t with
  | nil => simp [without, get?]
  | cons p t ih =>
    by_cases hd : drop p.1 <;> by_cases h : p.1 = k <;>
      simp_all [without, get?]

theorem get?_set (t : Table κ ν) (k l : κ) (v : ν) :
    (t.set k v).get? l = if k = l then some v else t.get? l := by
  rw [set, get?_cons, get?_without]
  by_cases h : k = l
  · simp [h]
  · simp [h, Ne.symm h]

end Table

end ReactiveForm
