import Mathlib
import ReactiveForm.Compare

/-!
# The comparison relation

`Value.Related` is the relation of XPath 1.0. Two atoms are related in the type they have in common,
a node-set is related as some node of it is, and to a boolean as whether it has nodes. Comparison
decides this relation, and exchanging the operands mirrors the operator.
-/

set_option autoImplicit false

namespace ReactiveForm

/-! ## Equality of numbers -/

namespace Number

open Float.Model

theorem unpacked_compare_swap (x y : UnpackedFloat) :
    y.compare x = (x.compare y).map Ordering.swap := by
  have hsigns (s t : UnpackedFloat.Sign) : compare t s = (compare s t).swap := by
    cases s <;> cases t <;> rfl
  have hexponents (e e' : Int) : compare e' e = (compare e e').swap := Std.OrientedOrd.eq_swap
  have hmantissas (m m' : Nat) : compare m' m = (compare m m').swap := Std.OrientedOrd.eq_swap
  cases x with
  | notANumber => cases y <;> rfl
  | zero s => rcases y with (_ | _) | _ | _ | ⟨_ | _, _, _, _⟩ <;> rfl
  | infinity s =>
    cases y with
    | infinity t => exact congrArg some (hsigns s t)
    | notANumber => cases s <;> rfl
    | zero t => cases s <;> rfl
    | finite t m' e' _ => cases s <;> cases t <;> rfl
  | finite s m e _ =>
    rcases y with (_ | _) | _ | _ | ⟨t, m', e', _⟩
    case finite =>
      cases s <;> cases t <;>
        simp [UnpackedFloat.compare, hexponents e e', hmantissas m m', Ordering.swap_then]
    all_goals cases s <;> rfl

/-- Equality of numbers is symmetric; it is not reflexive. -/
theorem beq_comm (x y : Float) : (x == y) = (y == x) := by
  change (x.toModel.unpack.compare y.toModel.unpack == some .eq)
    = (y.toModel.unpack.compare x.toModel.unpack == some .eq)
  rw [unpacked_compare_swap x.toModel.unpack]
  cases x.toModel.unpack.compare y.toModel.unpack with
  | none => rfl
  | some order => cases order <;> rfl

end Number

@[simp] theorem Operator.swapped_swapped (op : Operator) : op.swapped.swapped = op := by
  cases op <;> rfl

/-! ## Atoms -/

namespace Atom

/-- The type of an atom. -/
def type : Atom → ValueType
  | string _ => .string
  | number _ => .number
  | boolean _ => .boolean

/-- The type in which two atoms are tested for equality: boolean goes before number, and number
before string. -/
def commonType (a b : Atom) : ValueType :=
  if a.type = .boolean ∨ b.type = .boolean then .boolean
  else if a.type = .number ∨ b.type = .number then .number
  else .string

/-- Two atoms that are equal in a type. -/
def EqualAs (a b : Atom) : ValueType → Prop
  | .boolean => a.toBool = b.toBool
  | .number => a.toNumber == b.toNumber
  | _ => a.toText = b.toText

/-- The atomic comparisons. The other operators relate nothing. -/
def Related (op : Operator) (a b : Atom) : Prop :=
  match op with
  | .eq => a.EqualAs b (a.commonType b)
  | .ne => ¬ a.EqualAs b (a.commonType b)
  | .lt => a.toNumber < b.toNumber
  | .le => a.toNumber ≤ b.toNumber
  | .gt => a.toNumber > b.toNumber
  | .ge => a.toNumber ≥ b.toNumber
  | _ => False

variable {a b : Atom}

theorem commonType_comm (a b : Atom) : a.commonType b = b.commonType a := by
  simp only [commonType, or_comm]

theorem EqualAs.symm {type : ValueType} (h : a.EqualAs b type) : b.EqualAs a type := by
  cases type with
  | number =>
    change (b.toNumber == a.toNumber) = true
    rwa [Number.beq_comm]
  | string => exact Eq.symm h
  | boolean => exact Eq.symm h
  | nodeSet => exact Eq.symm h

theorem equalAs_commonType_comm (a b : Atom) :
    a.EqualAs b (a.commonType b) ↔ b.EqualAs a (b.commonType a) := by
  rw [commonType_comm a b]
  exact ⟨EqualAs.symm, EqualAs.symm⟩

theorem equal_iff (a b : Atom) : a.equal b ↔ a.EqualAs b (a.commonType b) := by
  cases a <;> cases b <;> simp [equal, EqualAs, commonType, type, toBool, toNumber, toText]

theorem compare_iff (op : Operator) (a b : Atom) : Atom.compare op a b ↔ Related op a b := by
  cases op
  case eq => exact equal_iff a b
  case ne => simp [Atom.compare, Related, ← equal_iff]
  all_goals simp [Atom.compare, Related]

theorem related_swapped (op : Operator) (a b : Atom) :
    Related op.swapped b a ↔ Related op a b := by
  cases op
  case eq => exact equalAs_commonType_comm b a
  case ne => exact not_congr (equalAs_commonType_comm b a)
  all_goals exact Iff.rfl

end Atom

/-! ## Values -/

namespace Value

variable {N : Type} {t : HostTree N} {op : Operator}

/-- The comparison of two values of any types. -/
inductive Related (t : HostTree N) (op : Operator) : Value N → Value N → Prop
  | atoms {a b : Atom} (h : a.Related op b) : Related t op (.atom a) (.atom b)
  /-- Against a boolean, a node-set stands for whether it has nodes. -/
  | nodesBoolean {xs : List N} {b : Bool}
      (h : (Atom.boolean (decide (xs ≠ []))).Related op (.boolean b)) :
      Related t op (.nodes xs) (.boolean b)
  | booleanNodes {ys : List N} {a : Bool}
      (h : (Atom.boolean a).Related op (.boolean (decide (ys ≠ [])))) :
      Related t op (.boolean a) (.nodes ys)
  /-- Against a number or a string, some node has a text that is related to it. -/
  | nodesAtom {xs : List N} {x : N} {b : Atom} (hx : x ∈ xs) (hb : b.type ≠ .boolean)
      (h : (Atom.string (t.stringValue x)).Related op b) : Related t op (.nodes xs) (.atom b)
  | atomNodes {ys : List N} {y : N} {a : Atom} (hy : y ∈ ys) (ha : a.type ≠ .boolean)
      (h : a.Related op (.string (t.stringValue y))) : Related t op (.atom a) (.nodes ys)
  /-- Two node-sets are related as some pair of their nodes is. -/
  | nodes {xs ys : List N} {x y : N} (hx : x ∈ xs) (hy : y ∈ ys)
      (h : (Atom.string (t.stringValue x)).Related op (.string (t.stringValue y))) :
      Related t op (.nodes xs) (.nodes ys)

theorem Related.symm {v w : Value N} (h : Related t op v w) : Related t op.swapped w v := by
  have hswap {a b : Atom} (h : a.Related op b) : b.Related op.swapped a :=
    (Atom.related_swapped op a b).mpr h
  cases h with
  | atoms h => exact .atoms (hswap h)
  | nodesBoolean h => exact .booleanNodes (hswap h)
  | booleanNodes h => exact .nodesBoolean (hswap h)
  | nodesAtom hx hb h => exact .atomNodes hx hb (hswap h)
  | atomNodes hy ha h => exact .nodesAtom hy ha (hswap h)
  | nodes hx hy h => exact .nodes hy hx (hswap h)

theorem related_swapped (t : HostTree N) (op : Operator) (v w : Value N) :
    Related t op.swapped w v ↔ Related t op v w := by
  constructor
  · intro h
    have hback := h.symm
    rwa [Operator.swapped_swapped] at hback
  · exact Related.symm

theorem compareNodes_of_ne_boolean {b : Atom} (hb : b.type ≠ .boolean) (xs : List N) :
    compareNodes t op xs b
      = xs.any fun x => Atom.compare op (.string (t.stringValue x)) b := by
  cases b with
  | boolean b => exact absurd rfl hb
  | string b => rfl
  | number b => rfl

theorem compareNodes_iff (t : HostTree N) (op : Operator) (xs : List N) (b : Atom) :
    compareNodes t op xs b ↔ Related t op (.nodes xs) (.atom b) := by
  by_cases hb : b.type = .boolean
  · cases b with
    | boolean b =>
      have hempty : (!xs.isEmpty) = decide (xs ≠ []) := by cases xs <;> rfl
      rw [compareNodes, hempty, Atom.compare_iff]
      constructor
      · exact .nodesBoolean
      · rintro (_ | h | _ | ⟨_, hb, _⟩)
        · exact h
        · exact absurd rfl hb
    | string b => cases hb
    | number b => cases hb
  · rw [compareNodes_of_ne_boolean hb]
    simp only [List.any_eq_true, Atom.compare_iff]
    constructor
    · rintro ⟨x, hx, h⟩
      exact .nodesAtom hx hb h
    · rintro (_ | _ | _ | ⟨hx, _, h⟩)
      · exact absurd rfl hb
      · exact ⟨_, hx, h⟩

/-- Comparison decides the relation. -/
theorem compare_iff_related (t : HostTree N) (op : Operator) (v w : Value N) :
    v.compare t op w ↔ Related t op v w := by
  match v, w with
  | .atom a, .atom b =>
    refine (Atom.compare_iff op a b).trans ⟨.atoms, ?_⟩
    rintro ⟨h⟩
    exact h
  | .nodes xs, .atom b => exact compareNodes_iff t op xs b
  | .atom a, .nodes ys =>
    -- the node-set comes first, under the mirrored operator
    exact (compareNodes_iff t op.swapped ys a).trans (related_swapped t op _ _)
  | .nodes xs, .nodes ys =>
    simp only [compare, List.any_eq_true, Atom.compare_iff]
    constructor
    · rintro ⟨x, hx, y, hy, h⟩
      exact .nodes hx hy h
    · rintro (_ | _ | _ | _ | _ | ⟨hx, hy, h⟩)
      exact ⟨_, hx, _, hy, h⟩

theorem compare_swapped (t : HostTree N) (op : Operator) (v w : Value N) :
    v.compare t op w = w.compare t op.swapped v := by
  rw [Bool.eq_iff_iff, compare_iff_related, compare_iff_related, related_swapped]

/-- Values of all types compare as the relation says, an exchange of the two mirrors the operator,
and atoms differ exactly when they are not equal, numbers that are no number included. -/
theorem compare_laws (t : HostTree N) (op : Operator) (v w : Value N) (a b : Atom) :
    (v.compare t op w ↔ Related t op v w) ∧ v.compare t op w = w.compare t op.swapped v ∧
      compare t .ne (.atom a) (.atom b) = !compare t .eq (.atom a) (.atom b) :=
  ⟨compare_iff_related t op v w, compare_swapped t op v w, rfl⟩

/-- A number that is no number is not equal to itself, and so it differs from itself. -/
example : Atom.compare .ne (.number (0 / 0)) (.number (0 / 0)) = true := by decide +kernel

end Value

end ReactiveForm
