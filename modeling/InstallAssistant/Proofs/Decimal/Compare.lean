import Mathlib

/-!
# InstallAssistant.Proofs.Decimal.Compare

Comparing floats.  Two floats compare in one of three ways, unless one of them is
not a number (`compare_eq_none_iff`), and in the opposite way the other way round
(`compare_swap`).  So one of two numbers is less than the other exactly if the other
is not at most as large (`not_le_iff`, `not_lt_iff`), in either size of float
(`not_lt_iff32`).  What lies between two finite floats is finite
(`isFinite_of_between`).
-/

namespace InstallAssistant.Decimal

open Float.Model

/-! ## sizes and signs -/

theorem compare_finite_swap (m n : Nat) (e f : Int) :
    (compare f e).then (compare n m) = ((compare e f).then (compare m n)).swap := by
  rw [Ordering.swap_then, ← Int.compare_swap, ← Nat.compare_swap]

theorem compare_swap (a b : UnpackedFloat) : b.compare a = (a.compare b).map Ordering.swap := by
  cases a with
  | notANumber => cases b <;> rfl
  | infinity s =>
      cases b with
      | infinity t => cases s <;> cases t <;> rfl
      | _ => cases s <;> rfl
  | zero s =>
      cases b with
      | infinity t => cases t <;> rfl
      | finite t n f h => cases t <;> rfl
      | _ => rfl
  | finite s m e h =>
      cases b with
      | infinity t => cases t <;> rfl
      | zero t => cases s <;> rfl
      | notANumber => cases s <;> rfl
      | finite t n f h =>
          have hswap := compare_finite_swap m n e f
          cases s with
          | negative =>
              cases t with
              | negative =>
                  have hback := congrArg Ordering.swap hswap
                  rw [Ordering.swap_swap] at hback
                  simp only [UnpackedFloat.compare, Option.map_some, Ordering.swap_swap, hback]
              | positive => rfl
          | positive =>
              cases t with
              | negative => rfl
              | positive => simp only [UnpackedFloat.compare, Option.map_some, hswap]

theorem compare_eq_none_iff (a b : UnpackedFloat) :
    a.compare b = none ↔ a.isNaN = true ∨ b.isNaN = true := by
  fun_cases UnpackedFloat.compare a b <;> simp_all [UnpackedFloat.isNaN]

/-- **What is not less** is at least as large, unless there is something that is no number. -/
theorem compare_ne_lt_iff (a b : UnpackedFloat) :
    a.compare b ≠ some .lt ↔
      a.isNaN = true ∨ b.isNaN = true ∨ (b.compare a).any Ordering.isLE = true := by
  rw [compare_swap a b, ← or_assoc, ← compare_eq_none_iff]
  cases a.compare b with
  | none => simp
  | some o => cases o <;> simp

theorem isFinite_of_compare {a b c : UnpackedFloat} (hb : b.isFinite = true)
    (hc : c.isFinite = true) (hlow : (b.compare a).any Ordering.isLE = true)
    (hhigh : a.compare c = some .lt) : a.isFinite = true := by
  cases a with
  | notANumber => cases b <;> contradiction
  | infinity s =>
      cases s with
      | negative => cases b <;> contradiction
      | positive =>
          cases c with
          | notANumber => contradiction
          | infinity t => contradiction
          | zero t => cases hhigh
          | finite t m e h => cases hhigh
  | zero s => rfl
  | finite s m e h => rfl

/-! ## floats -/

section

variable {x y : Float}

theorem le_iff : x ≤ y ↔ (x.toModel.unpack.compare y.toModel.unpack).any Ordering.isLE = true :=
  decide_eq_true_iff

theorem lt_iff : x < y ↔ x.toModel.unpack.compare y.toModel.unpack = some .lt :=
  decide_eq_true_iff.trans beq_iff_eq

theorem compare_unpack_eq_none_iff :
    x.toModel.unpack.compare y.toModel.unpack = none ↔ x.isNaN = true ∨ y.isNaN = true :=
  compare_eq_none_iff _ _

/-- **What is not at most as large** is larger, unless there is something that is no number. -/
theorem not_le_iff : ¬ x ≤ y ↔ x.isNaN = true ∨ y.isNaN = true ∨ y < x := by
  rw [le_iff, lt_iff, compare_swap x.toModel.unpack, ← or_assoc, ← compare_unpack_eq_none_iff]
  cases x.toModel.unpack.compare y.toModel.unpack with
  | none => simp
  | some o => cases o <;> simp

theorem not_lt_iff : ¬ x < y ↔ x.isNaN = true ∨ y.isNaN = true ∨ y ≤ x := by
  rw [le_iff, lt_iff]
  exact compare_ne_lt_iff _ _

theorem beq_iff : (x == y) = true ↔ x ≤ y ∧ y ≤ x := by
  have hbeq : (x == y) = (x.toModel.unpack.compare y.toModel.unpack == some .eq) := rfl
  rw [hbeq, beq_iff_eq, le_iff, le_iff, compare_swap x.toModel.unpack]
  cases x.toModel.unpack.compare y.toModel.unpack with
  | none => simp
  | some o => cases o <;> simp

/-- What lies between two finite floats is finite. -/
theorem isFinite_of_between {z : Float} (hx : x.isFinite = true) (hz : z.isFinite = true)
    (hlow : x ≤ y) (hhigh : y < z) : y.isFinite = true :=
  isFinite_of_compare hx hz (le_iff.mp hlow) (lt_iff.mp hhigh)

end

/-! ## short floats -/

theorem not_lt_iff32 {x y : Float32} : ¬ x < y ↔ x.isNaN = true ∨ y.isNaN = true ∨ y ≤ x := by
  have hlt : x < y ↔ x.toModel.unpack.compare y.toModel.unpack = some .lt :=
    decide_eq_true_iff.trans beq_iff_eq
  have hle : y ≤ x ↔ (y.toModel.unpack.compare x.toModel.unpack).any Ordering.isLE = true :=
    decide_eq_true_iff
  rw [hlt, hle]
  exact compare_ne_lt_iff _ _

end InstallAssistant.Decimal
