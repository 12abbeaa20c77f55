import InstallAssistant.Json.Literal
import InstallAssistant.Proofs.Decimal.Rounding
import InstallAssistant.Proofs.Decimal.Shortest
import Mathlib.Tactic.ByContra

/-!
# InstallAssistant.Proofs.Json.Scale

The value of a float literal is a number that was gathered from its digits, times or by
a power of ten.  A quotient is never too large (`isSome_scale?_of_nonpos`).  A product
can be: the gathered number and the power of ten are each rounded first, and the two
errors may lead from below the greatest float beyond it.  They do not when the number
has at most seventeen digits and the product is at most the number halfway between the
two greatest floats (`isSome_scale?_of_le`), as is the case for all that is printed of a
float, the greatest one aside.  How much room a product has is read off the powers of
ten one by one (`powers_checked`).
-/

namespace InstallAssistant.Decimal

/-- Where a whole number is cut off when it becomes a float, from how many binary digits it has. -/
theorem ofRatio_one {n : Nat} (hn : n ≠ 0) :
    Format.double.ofRatio n 1 =
      Format.double.ofRatioAt n 1 (max ((n.log2 : Int) - 52) (-1074)) := by
  have hlength : bitLength n = n.log2 + 1 := if_neg hn
  have hguess : (bitLength n : Int) - bitLength 1 - Format.double.precision = n.log2 - 53 := by
    have hone : bitLength 1 = 1 := rfl
    have hprecision : Format.double.precision = 53 := rfl
    omega
  have hlarge : ¬ n * 2 ^ (-((n.log2 : Int) - 53)).toNat <
      1 * 2 ^ ((n.log2 : Int) - 53).toNat * 2 ^ Format.double.precision := by
    have hexponent : ((n.log2 : Int) - 53).toNat + Format.double.precision =
        n.log2 + (-((n.log2 : Int) - 53)).toNat := by
      have hprecision : Format.double.precision = 53 := rfl
      omega
    rw [Nat.not_lt, Nat.one_mul, ← Nat.pow_add, hexponent, Nat.pow_add]
    exact Nat.mul_le_mul_right _ (Nat.log2_self_le hn)
  have hnext : (n.log2 : Int) - 53 + 1 = n.log2 - 52 := by omega
  rw [Format.ofRatio, if_neg hn]
  simp only [hguess]
  rw [if_neg fun h => hlarge h.1, if_neg hlarge, hnext]
  rfl

end InstallAssistant.Decimal

namespace InstallAssistant.Json.Literal

open Decimal
open Float.Model (UnpackedFloat)

/-! ## finite floats -/

/-- A float that is neither infinite nor no number. -/
def InRange (x : Float) : Prop := Within (2 ^ 53 - 1) 971 x.toModel.unpack

theorem inRange_ofNat {n : Nat} (h : n < wordBound) : InRange (Float.ofNat n) := by
  refine within_ofNat (by decide) (by decide) (by decide) (Nat.le_trans (Nat.le_of_lt h) ?_)
  decide +kernel

/-! ## powers of ten -/

/-- The greatest number of at most seventeen digits that may be multiplied with `10 ^ k`. -/
def greatestFactor (k : Nat) : Nat := min (10 ^ 17) (nearGreatest / 10 ^ k)

/-- Whether a float times `m · 2 ^ e` is a float, for the least float that is not below `n`. -/
def fits (n m : Nat) (e : Int) : Bool :=
  let places := n.log2 - 52
  let c := (n + 2 ^ places - 1) / 2 ^ places
  c < 2 ^ 53 && places ≤ 971 && -1074 ≤ e && places + e ≤ 971 &&
    c * m ≤ (2 ^ 53 - 1) * 2 ^ (971 - (places + e)).toNat

/-- Whether a float can stand for `10 ^ k`: it is at least two, one aside, and has a product with
every number that it is multiplied with. -/
def powerChecked (k : Nat) : UnpackedFloat → Bool
  | .finite _ m e _ => (k = 0 || 1 ≤ m.log2 + e) && fits (greatestFactor k) m e
  | _ => false

theorem log2_powerOfTen {k : Nat} (hk : k < 309) : (10 ^ k).log2 = k * 217706 / 2 ^ 16 := by
  have hall : ∀ k < 309,
      2 ^ (k * 217706 / 2 ^ 16) ≤ 10 ^ k ∧ 10 ^ k < 2 ^ (k * 217706 / 2 ^ 16 + 1) := by
    decide +kernel
  exact (Nat.log2_eq_iff (Nat.ne_of_gt (Nat.pow_pos (by decide)))).mpr (hall k hk)

theorem powers_checked {k : Nat} (hk : k < 309) :
    powerChecked k (powerOfTen k).toModel.unpack = true := by
  -- the logarithm of so large a number is not to be evaluated
  have hall : ∀ k < 309, powerChecked k (toFloat false (Format.double.ofRatioAt (10 ^ k) 1
      (max ((k * 217706 / 2 ^ 16 : Nat) - 52) (-1074)))).toModel.unpack = true := by
    decide +kernel
  rw [powerOfTen, ofRatio_one (Nat.ne_of_gt (Nat.pow_pos (by decide))), log2_powerOfTen hk]
  exact hall k hk

theorem exists_of_powerChecked {k : Nat} {x : UnpackedFloat} (h : powerChecked k x = true) :
    ∃ s m e hpos, x = .finite s m e hpos ∧ (0 < k → 1 ≤ m.log2 + e) ∧
      fits (greatestFactor k) m e = true := by
  cases x with
  | finite s m e hpos =>
      have hboth : ((k = 0 || 1 ≤ m.log2 + e) && fits (greatestFactor k) m e) = true := h
      simp only [Bool.and_eq_true, Bool.or_eq_true, decide_eq_true_eq] at hboth
      exact ⟨s, m, e, hpos, rfl, fun hk => hboth.1.resolve_left (Nat.ne_of_gt hk), hboth.2⟩
  | zero s => contradiction
  | infinity s => contradiction
  | notANumber => contradiction

theorem exists_powerOfTen {k : Nat} (hk : k < 309) :
    ∃ s m e h, (powerOfTen k).toModel.unpack = .finite s m e h ∧ (0 < k → 1 ≤ m.log2 + e) ∧
      fits (greatestFactor k) m e = true :=
  exists_of_powerChecked (powers_checked hk)

theorem inRange_div_powerOfTen {x : Float} (hx : InRange x) {k : Nat} (hk : k < 309)
    (hpos : 0 < k) : InRange (x / powerOfTen k) := by
  obtain ⟨s, m, e, h, hunpack, htwo, -⟩ := exists_powerOfTen hk
  have hdiv : (x / powerOfTen k).toModel =
      .pack (.div .binary64 x.toModel.unpack (powerOfTen k).toModel.unpack) := rfl
  rw [InRange, hdiv, hunpack]
  exact within_unpack_pack (by decide) ((within_div hx (htwo hpos)).mono (by decide))

theorem inRange_mul_of_fits {n g m : Nat} {e : Int} (hn : n ≤ g) (hfits : fits g m e = true)
    {y : Float} {s h} (hy : y.toModel.unpack = .finite s m e h) : InRange (Float.ofNat n * y) := by
  simp only [fits, Bool.and_eq_true, decide_eq_true_eq] at hfits
  obtain ⟨⟨⟨⟨hc, hplaces⟩, hleast⟩, hexponent⟩, hproduct⟩ := hfits
  generalize g.log2 - 52 = places at *
  have hfactor : g ≤ (g + 2 ^ places - 1) / 2 ^ places * 2 ^ places := by
    have hdivide := Nat.div_add_mod' (g + 2 ^ places - 1) (2 ^ places)
    omega
  generalize (g + 2 ^ places - 1) / 2 ^ places = c at *
  have hx : Within c places (Float.ofNat n).toModel.unpack :=
    within_ofNat (by omega) (by omega) hc (Nat.le_trans hn hfactor)
  have hself : Within m e y.toModel.unpack := by
    rw [hy]
    exact .finite s hleast (Int.le_refl e) (Nat.le_mul_of_pos_right m (Nat.two_pow_pos _))
  exact within_mul_float hx hself (by decide) (by decide) hexponent (by decide) hproduct

/-- **A product with a power of ten** is a float, if it stays away from the greatest one. -/
theorem inRange_mul_powerOfTen {n k : Nat} (hk : k < 309) (hn : n ≤ 10 ^ 17)
    (h : n * 10 ^ k ≤ nearGreatest) : InRange (Float.ofNat n * powerOfTen k) := by
  obtain ⟨s, m, e, _, hunpack, -, hfits⟩ := exists_powerOfTen hk
  refine inRange_mul_of_fits (Nat.le_min.mpr ⟨hn, ?_⟩) hfits hunpack
  rwa [Nat.le_div_iff_mul_le (Nat.pow_pos (by decide))]

/-! ## scaling -/

theorem inRange_scaleDown {x : Float} (hx : InRange x) {e : Int} (he : e ≤ 0) :
    InRange (scaleDown x e) := by
  fun_induction scaleDown x e with
  | case1 x e hlow hneg => exact inRange_div_powerOfTen hx (by omega) (by omega)
  | case2 x e hlow hneg =>
      have hzero : e.natAbs = 0 := by omega
      have hone : Within (2 ^ 52) (-52) (powerOfTen 0).toModel.unpack := by decide +kernel
      rw [hzero]
      exact within_mul_float hx hone (by decide) (by decide) (by decide) (by decide) (by decide)
  | case3 x e hlow hzero => exact hx
  | case4 x e hlow hzero ih =>
      exact ih (inRange_div_powerOfTen hx (by decide) (by decide)) (by omega)

theorem isSome_scale?_of_inRange {x : Float} {e : Int} (he : e ≤ 308)
    (h : InRange (scaleDown x e)) : (scale? x e).isSome = true := by
  have hinf : (scaleDown x e).isInf = false := isInf_of_within h
  rw [scale?, if_pos he]
  simp only [hinf]
  rfl

/-- **A quotient** is not too large. -/
theorem isSome_scale?_of_nonpos {n : Nat} (hn : n < wordBound) {e : Int} (he : e ≤ 0) :
    (scale? (Float.ofNat n) e).isSome = true :=
  isSome_scale?_of_inRange (Int.le_trans he (by decide)) (inRange_scaleDown (inRange_ofNat hn) he)

/-- Only zero stays away from the greatest float with so large an exponent. -/
theorem eq_zero_of_le {n : Nat} {e : Int} (he : 309 ≤ e) (h : n * 10 ^ e.toNat ≤ nearGreatest) :
    n = 0 := by
  by_contra hne
  have hpower : 10 ^ (309 : Int).toNat ≤ n * 10 ^ e.toNat := by
    calc 10 ^ (309 : Int).toNat ≤ 10 ^ e.toNat := Nat.pow_le_pow_right (by decide) (by omega)
      _ ≤ n * 10 ^ e.toNat := Nat.le_mul_of_pos_left _ (Nat.pos_of_ne_zero hne)
  exact absurd (Nat.le_trans hpower h) (by decide +kernel)

/-- **A product** of seventeen digits that stays away from the greatest float is not too large. -/
theorem isSome_scale?_of_le {n : Nat} (hn : n ≤ 10 ^ 17) {e : Int} (he : 0 ≤ e)
    (h : n * 10 ^ e.toNat ≤ nearGreatest) : (scale? (Float.ofNat n) e).isSome = true := by
  have habs : e.natAbs = e.toNat := by omega
  by_cases hexponent : e ≤ 308
  · refine isSome_scale?_of_inRange hexponent ?_
    rw [scaleDown, if_pos (by omega), if_neg (by omega), habs]
    exact inRange_mul_powerOfTen (by omega) hn h
  · have hfloat : (Float.ofNat 0 == 0) = true := by decide +kernel
    rw [eq_zero_of_le (by omega) h, scale?, if_neg hexponent, if_pos hfloat]
    rfl

end InstallAssistant.Json.Literal
