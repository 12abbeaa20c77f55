import InstallAssistant.Decimal.Binary
import Mathlib.Algebra.Group.Nat.Defs

/-!
# InstallAssistant.Proofs.Decimal.Rounding

How large a rounded float can be.  The bounds are floats themselves: a significand
times a power of two (`Within`).  Rounding does not pass a float, so a result that is
within a bound before it is rounded is so afterwards (`within_roundWithAccuracy`), and
putting it into a word does not change that (`within_unpack_pack`).  From this follow
bounds on products, on quotients by at least two and on whole numbers (`within_mul`,
`within_div`, `within_ofNat`); what is within a bound is not infinite
(`isInf_of_within`).
-/

namespace InstallAssistant.Decimal

open Float.Model

/-! ## bounds -/

/-- A number of at most `n · 2 ^ k` in size, with an exponent that a finite float can have. -/
inductive Within (n : Nat) (k : Int) : UnpackedFloat → Prop
  | zero (s : UnpackedFloat.Sign) : Within n k (.zero s)
  | finite (s : UnpackedFloat.Sign) {m : Nat} {e : Int} {hpos : 0 < m} (hleast : -1074 ≤ e)
      (hmost : e ≤ k) (hm : m ≤ n * 2 ^ (k - e).toNat) : Within n k (.finite s m e hpos)

instance (n : Nat) (k : Int) : DecidablePred (Within n k)
  | .zero s => .isTrue (.zero s)
  | .finite s m e _ =>
      if h : -1074 ≤ e ∧ e ≤ k ∧ m ≤ n * 2 ^ (k - e).toNat then .isTrue (.finite s h.1 h.2.1 h.2.2)
      else .isFalse fun | .finite _ hleast hmost hm => h ⟨hleast, hmost, hm⟩
  | .infinity _ => .isFalse nofun
  | .notANumber => .isFalse nofun

theorem Within.mono {n n' : Nat} {k : Int} {f : UnpackedFloat} (h : Within n k f) (hn : n ≤ n') :
    Within n' k f := by
  cases h with
  | zero s => exact .zero s
  | finite s hleast hmost hm =>
      exact .finite s hleast hmost (Nat.le_trans hm (Nat.mul_le_mul_right _ hn))

theorem within_zero_or_finite {n m : Nat} {k e : Int} {s : UnpackedFloat.Sign}
    (h : ∀ hpos : 0 < m, Within n k (.finite s m e hpos)) :
    Within n k (if hm : m = 0 then .zero s else .finite s m e (Nat.pos_of_ne_zero hm)) := by
  by_cases hm : m = 0
  · rw [dif_pos hm]
    exact .zero s
  · rw [dif_neg hm]
    exact h (Nat.pos_of_ne_zero hm)

open UnpackedFloat

/-! ## rounding -/

/-- The mantissa, and one more if anything was cut off. -/
def ceil (em : ExtendedMantissa) : Nat :=
  em.mantissa + (em.roundBit || em.stickyBit).toNat

theorem mantissa_le_ceil (em : ExtendedMantissa) : em.mantissa ≤ ceil em := Nat.le_add_right _ _

theorem roundedMantissa_le_ceil (em : ExtendedMantissa) : em.roundedMantissa ≤ ceil em := by
  obtain ⟨m, round, sticky⟩ := em
  cases round <;> cases sticky <;>
    simp [ExtendedMantissa.roundedMantissa, ExtendedMantissa.accuracy, Accuracy.roundToNearestEven,
      ceil]
  omega

theorem ceil_ofMantissaAndAccuracy_le (m : Nat) (a : Accuracy) :
    ceil (.ofMantissaAndAccuracy m a) ≤ m + 1 := by
  cases a with
  | exact => exact Nat.le_succ _
  | inexact o => cases o <;> exact Nat.le_refl _

theorem ceil_shiftRightOne_le {em : ExtendedMantissa} {c : Nat} (h : ceil em ≤ c * 2) :
    ceil em.shiftRightOne ≤ c := by
  obtain ⟨m, round, sticky⟩ := em
  simp only [ceil, ExtendedMantissa.shiftRightOne] at h ⊢
  have hodd : (m % 2 != 0) = decide (m % 2 = 1) := by
    cases Nat.mod_two_eq_zero_or_one m with
    | inl heven => rw [heven]; rfl
    | inr hodd => rw [hodd]; rfl
  rw [hodd]
  by_cases hm : m % 2 = 1 <;> cases hrest : (round || sticky) <;>
    simp only [hm, hrest, decide_true, decide_false, Bool.or_true, Bool.or_false, Bool.toNat_true,
      Bool.toNat_false] at h ⊢ <;> omega

theorem ceil_shiftRight_le {em : ExtendedMantissa} {c j : Nat} (h : ceil em ≤ c * 2 ^ j) :
    ceil (em >>> j) ≤ c := by
  induction j generalizing c with
  | zero => rwa [Nat.pow_zero, Nat.mul_one] at h
  | succ j ih =>
      refine ceil_shiftRightOne_le (ih ?_)
      rwa [Nat.pow_succ, Nat.mul_comm (2 ^ j), ← Nat.mul_assoc] at h

theorem targetExponent_eq (t : Int) : Format.binary64.targetExponent t = max (t - 53) (-1074) := rfl

theorem log2_lt_of_le {m n j : Nat} (hn : n < 2 ^ 53) (hm : m ≤ n * 2 ^ j) : m.log2 < 53 + j := by
  by_cases hzero : m = 0
  · rw [hzero]
    exact Nat.lt_add_right _ (by decide)
  · refine (Nat.log2_lt hzero).mpr (Nat.lt_of_le_of_lt hm ?_)
    rw [Nat.pow_add]
    exact Nat.mul_lt_mul_of_pos_right hn (Nat.two_pow_pos _)

/-- The exponent to which a number is shifted stays below a bound that fits a significand. -/
theorem targetExponent_le {m n : Nat} {e k : Int} (hk : -1074 ≤ k) (he : e ≤ k) (hn : n < 2 ^ 53)
    (hm : m ≤ n * 2 ^ (k - e).toNat) :
    Format.binary64.targetExponent (totalExponent m e) ≤ k := by
  have hlog := log2_lt_of_le hn hm
  rw [targetExponent_eq, totalExponent]
  omega

theorem shiftToTargetExponent_le {m n : Nat} {e k : Int} {a : Accuracy} (hk : -1074 ≤ k)
    (he : e ≤ k) (hn : n < 2 ^ 53)
    (hm : ceil (.ofMantissaAndAccuracy m a) ≤ n * 2 ^ (k - e).toNat) :
    let shifted := shiftToTargetExponent .binary64 m e a
    shifted.2 ≤ k ∧ -1074 ≤ shifted.2 ∧ ceil shifted.1 ≤ n * 2 ^ (k - shifted.2).toNat := by
  have hmantissa : m ≤ ceil (.ofMantissaAndAccuracy m a) := by
    refine Nat.le_trans (Nat.le_of_eq ?_) (mantissa_le_ceil _)
    cases a with
    | exact => rfl
    | inexact o => cases o <;> rfl
  have htarget := targetExponent_le hk he hn (Nat.le_trans hmantissa hm)
  have hleast : -1074 ≤ Format.binary64.targetExponent (totalExponent m e) := by
    rw [targetExponent_eq]
    exact Int.le_max_right _ _
  simp only [shiftToTargetExponent, shiftToExponent]
  generalize Format.binary64.targetExponent (totalExponent m e) = t at *
  refine ⟨by omega, by omega, ceil_shiftRight_le (Nat.le_trans hm (Nat.le_of_eq ?_))⟩
  have hexponents : (k - e).toNat = (k - (e + (t - e).toNat)).toNat + (t - e).toNat := by omega
  rw [Nat.mul_assoc, ← Nat.pow_add, ← hexponents]

/-- **Rounding does not pass a float**: what is at most `n · 2 ^ k` is rounded to at most that, if
`n` fits a significand and `k` is an exponent. -/
theorem within_roundWithAccuracy {m n : Nat} {e k : Int} {a : Accuracy} (hk : -1074 ≤ k)
    (he : e ≤ k) (hn : n < 2 ^ 53)
    (hm : ceil (.ofMantissaAndAccuracy m a) ≤ n * 2 ^ (k - e).toNat) (s : Sign) :
    Within n k (roundWithAccuracy .binary64 s m e a) := by
  obtain ⟨hfirst, -, hrounded⟩ := shiftToTargetExponent_le hk he hn hm
  unfold roundWithAccuracy
  generalize shiftToTargetExponent .binary64 m e a = first at *
  have hexact : ceil (.ofMantissaAndAccuracy first.1.roundedMantissa .exact) ≤
      n * 2 ^ (k - first.2).toNat := Nat.le_trans (roundedMantissa_le_ceil _) hrounded
  obtain ⟨hsecond, hleast, hfinal⟩ := shiftToTargetExponent_le hk hfirst hn hexact
  exact within_zero_or_finite fun _ =>
    .finite s hleast hsecond (Nat.le_trans (mantissa_le_ceil _) hfinal)

/-! ## words -/

theorem toNat_one_append (m : Nat) : (1#1 ++ BitVec.ofNat 52 m).toNat = 2 ^ 52 + m % 2 ^ 52 := by
  rw [BitVec.toNat_append, BitVec.toNat_ofNat, Nat.shiftLeft_eq]
  exact (Nat.two_pow_add_eq_or_of_lt (Nat.mod_lt m (Nat.two_pow_pos 52)) 1).symm

theorem toNat_one_append_pos (fraction : BitVec 52) : 0 < (1#1 ++ fraction).toNat := by
  rw [BitVec.toNat_append]
  exact Nat.lt_of_lt_of_le (by decide) Nat.left_le_or

theorem finite_congr {s : Sign} {m m' : Nat} {e e' : Int} {h : 0 < m} (h' : 0 < m') (hm : m = m')
    (he : e = e') : UnpackedFloat.finite s m e h = .finite s m' e' h' := by
  subst hm he
  rfl

/-- The number of a word, from its exponent field and its fraction. -/
theorem unpack_of_fields {word : BitVec 64} {field : BitVec 11} {fraction : BitVec 52}
    (hfield : @unpackExponent .binary64 word = field)
    (hfraction : @unpackMantissa .binary64 word = fraction) :
    UnpackedFloat.unpack .binary64 word =
      let sign := Sign.ofBitVec (@unpackSign .binary64 word)
      if field = -1#11 then if fraction = 0#52 then .infinity sign else .notANumber
      else if field = 0#11 then
        if h : fraction = 0#52 then .zero sign
        else .finite sign fraction.toNat (field.toNat - 1075 + 1)
          (Nat.pos_of_ne_zero fun hzero => h (BitVec.toNat_inj.mp hzero))
      else .finite sign (1#1 ++ fraction).toNat (field.toNat - 1075) (toNat_one_append_pos fraction) := by
  subst hfield hfraction
  rfl

/-- A word with an exponent field that is neither the least nor the greatest. -/
theorem unpack_normal (s : Sign) {field : Nat} (m : Nat) (hpos : 0 < field) (hlt : field < 2047) :
    ∃ s' h, UnpackedFloat.unpack .binary64
      (packComponents .binary64 s (BitVec.ofNat 11 field) (BitVec.ofNat 52 m)) =
        .finite s' (2 ^ 52 + m % 2 ^ 52) (field - 1075) h := by
  have hfield : (BitVec.ofNat 11 field).toNat = field := Nat.mod_eq_of_lt (by omega)
  have htop : BitVec.ofNat 11 field ≠ -1#11 := by
    intro heq
    rw [heq] at hfield
    exact absurd hfield (Nat.ne_of_gt hlt)
  have hbottom : BitVec.ofNat 11 field ≠ 0#11 := by
    intro heq
    rw [heq] at hfield
    exact absurd hfield (Nat.ne_of_lt hpos)
  rw [unpack_of_fields unpackExponent_packComponents unpackMantissa_packComponents]
  dsimp only
  rw [if_neg htop, if_neg hbottom]
  exact ⟨_, Nat.add_pos_left (by decide) _, finite_congr _ (toNat_one_append m) (by rw [hfield])⟩

/-- A word with the least exponent field. -/
theorem unpack_subnormal (s : Sign) (m : Nat) :
    ∃ s', UnpackedFloat.unpack .binary64
      (packComponents .binary64 s 0#11 (BitVec.ofNat 52 m)) =
        if h : m % 2 ^ 52 = 0 then .zero s'
        else .finite s' (m % 2 ^ 52) (-1074) (Nat.pos_of_ne_zero h) := by
  have hzero : BitVec.ofNat 52 m = 0#52 ↔ m % 2 ^ 52 = 0 := BitVec.toNat_inj.symm
  have htop : 0#11 ≠ -1#11 := by decide
  rw [unpack_of_fields unpackExponent_packComponents unpackMantissa_packComponents]
  dsimp only
  generalize Sign.ofBitVec _ = s'
  refine ⟨s', ?_⟩
  rw [if_neg htop, if_pos rfl]
  by_cases h : m % 2 ^ 52 = 0
  · rw [dif_pos (hzero.mpr h), dif_pos h]
  · rw [dif_neg (mt hzero.mp h), dif_neg h]
    exact finite_congr _ (BitVec.toNat_ofNat ..) rfl

/-- A float that fits is no larger for being put into a word. -/
theorem within_unpack_pack {n : Nat} {k : Int} (hk : k ≤ 971) {f : UnpackedFloat}
    (h : Within n k f) : Within n k (Float.Model.pack f).unpack := by
  have hword : (Float.Model.pack f).unpack =
      UnpackedFloat.unpack .binary64 (UnpackedFloat.pack .binary64 f) := rfl
  rw [hword]
  cases h with
  | zero s =>
      cases s with
      | positive => exact .zero .positive
      | negative => exact .zero .negative
  | @finite s m e hpos hleast hmost hm =>
      have hfits : ¬ 2 ^ 11 ≤ (e + 1023 + 52).toNat + 1 := by omega
      have hpack : UnpackedFloat.pack .binary64 (.finite s m e hpos) =
          if m.log2 + 1 = 53 then
            packComponents .binary64 s (BitVec.ofNat 11 (e + 1023 + 52).toNat) (BitVec.ofNat 52 m)
          else packComponents .binary64 s 0#11 (BitVec.ofNat 52 m) := if_neg hfits
      rw [hpack]
      split
      case isTrue hlog =>
        have hfield : 0 < (e + 1023 + 52).toNat ∧ (e + 1023 + 52).toNat < 2047 := by omega
        obtain ⟨s', hpos', heq⟩ := unpack_normal s m hfield.1 hfield.2
        obtain ⟨hlow, hhigh⟩ := (Nat.log2_eq_iff (Nat.ne_of_gt hpos)).mp (Nat.succ.inj hlog)
        have hsame : 2 ^ 52 + m % 2 ^ 52 = m := by omega
        have hexponent : (((e + 1023 + 52).toNat : Nat) : Int) - 1075 = e := by omega
        rw [heq]
        refine .finite s' ?_ ?_ ?_
        · rwa [hexponent]
        · rwa [hexponent]
        · rwa [hexponent, hsame]
      case isFalse hlog =>
        obtain ⟨s', heq⟩ := unpack_subnormal s m
        rw [heq]
        refine within_zero_or_finite fun _ =>
          .finite s' (Int.le_refl _) (Int.le_trans hleast hmost) ?_
        calc m % 2 ^ 52 ≤ m := Nat.mod_le _ _
          _ ≤ n * 2 ^ (k - e).toNat := hm
          _ ≤ n * 2 ^ (k - -1074).toNat :=
            Nat.mul_le_mul_left _ (Nat.pow_le_pow_right (by decide) (by omega))

/-! ## operations -/

theorem isInf_of_within {n : Nat} {k : Int} {f : UnpackedFloat} (h : Within n k f) :
    f.isInf = false := by
  cases h <;> rfl

/-- **A product** is at most the product of the bounds, or a float above it. -/
theorem within_mul {n n₁ n₂ : Nat} {k k₁ k₂ : Int} {x y : UnpackedFloat} (hx : Within n₁ k₁ x)
    (hy : Within n₂ k₂ y) (hk : -1074 ≤ k) (hexponents : k₁ + k₂ ≤ k) (hn : n < 2 ^ 53)
    (h : n₁ * n₂ ≤ n * 2 ^ (k - (k₁ + k₂)).toNat) :
    Within n k (UnpackedFloat.mul .binary64 x y) := by
  cases hx with
  | zero s =>
      cases hy with
      | zero t => exact .zero (s * t)
      | finite t => exact .zero (s * t)
  | @finite s₁ m₁ e₁ _ _ he₁ hm₁ =>
      cases hy with
      | zero t => exact .zero (s₁ * t)
      | @finite s₂ m₂ e₂ _ _ he₂ hm₂ =>
          refine within_roundWithAccuracy hk (by omega) hn ?_ (s₁ * s₂)
          calc m₁ * m₂ ≤ n₁ * 2 ^ (k₁ - e₁).toNat * (n₂ * 2 ^ (k₂ - e₂).toNat) :=
                Nat.mul_le_mul hm₁ hm₂
            _ = n₁ * n₂ * 2 ^ ((k₁ - e₁).toNat + (k₂ - e₂).toNat) := by
                rw [Nat.mul_mul_mul_comm, Nat.pow_add]
            _ ≤ n * 2 ^ (k - (k₁ + k₂)).toNat * 2 ^ ((k₁ - e₁).toNat + (k₂ - e₂).toNat) :=
                Nat.mul_le_mul_right _ h
            _ = n * 2 ^ (k - (e₁ + e₂)).toNat := by
                rw [Nat.mul_assoc, ← Nat.pow_add]
                congr 2
                omega

/-- The quotient by at least two, before it is rounded. -/
theorem divCore_lt {m d : Nat} {e f : Int} (hd : 0 < d) (hx : m.log2 + e ≤ 1023)
    (htwo : 1 ≤ d.log2 + f) :
    let quotient := divCore .binary64 m e d f
    quotient.2.1 ≤ 971 ∧ quotient.1 < 2 ^ 52 * 2 ^ (971 - quotient.2.1).toNat := by
  have htarget := targetExponent_eq (totalExponent m e - totalExponent d f)
  rw [totalExponent, totalExponent] at htarget
  simp only [divCore, totalExponent]
  generalize Format.binary64.targetExponent _ = t at *
  refine ⟨by omega, ?_⟩
  rw [Nat.div_lt_iff_lt_mul hd, Nat.shiftLeft_eq, ← Nat.pow_add]
  generalize hleast : min (e - f) t = u
  calc m * 2 ^ (e - f - u).toNat
      < 2 ^ (m.log2 + 1) * 2 ^ (e - f - u).toNat :=
        Nat.mul_lt_mul_of_pos_right Nat.lt_log2_self (Nat.two_pow_pos _)
    _ = 2 ^ (m.log2 + 1 + (e - f - u).toNat) := (Nat.pow_add ..).symm
    _ ≤ 2 ^ (52 + (971 - u).toNat + d.log2) := Nat.pow_le_pow_right (by decide) (by omega)
    _ = 2 ^ (52 + (971 - u).toNat) * 2 ^ d.log2 := Nat.pow_add ..
    _ ≤ 2 ^ (52 + (971 - u).toNat) * d := Nat.mul_le_mul_left _ (Nat.log2_self_le (Nat.ne_of_gt hd))

/-- **A quotient** of a float by at least two is at most half of the least power of two that is
above all floats. -/
theorem within_div {x : UnpackedFloat} (hx : Within (2 ^ 53 - 1) 971 x) {t : Sign} {d : Nat}
    {f : Int} {hd : 0 < d} (htwo : 1 ≤ d.log2 + f) :
    Within (2 ^ 52) 971 (UnpackedFloat.div .binary64 x (.finite t d f hd)) := by
  cases hx with
  | zero s => exact .zero (s / t)
  | @finite s m e _ _ hmost hm =>
      have hlog := log2_lt_of_le (by decide) hm
      have hx : m.log2 + e ≤ 1023 := by omega
      obtain ⟨hexponent, hquotient⟩ := divCore_lt hd hx htwo
      exact within_roundWithAccuracy (by decide) hexponent (by decide)
        (Nat.le_trans (ceil_ofMantissaAndAccuracy_le _ _) hquotient) (s / t)

theorem shifted_le {n m j : Nat} {k : Int} (hk : 0 ≤ k) (h : m ≤ n * 2 ^ k.toNat) :
    m * 2 ^ j ≤ n * 2 ^ (k - -j).toNat := by
  have hexponent : (k - -(j : Int)).toNat = k.toNat + j := by omega
  rw [hexponent, Nat.pow_add, ← Nat.mul_assoc]
  exact Nat.mul_le_mul_right _ h

theorem within_round {n m : Nat} {k : Int} (hk : 0 ≤ k) (hn : n < 2 ^ 53)
    (h : m ≤ n * 2 ^ k.toNat) (s : Sign) : Within n k (UnpackedFloat.round .binary64 s m 0) := by
  rw [UnpackedFloat.round]
  simp only [decreaseExponent, Nat.shiftLeft_eq]
  generalize (0 - Format.binary64.targetExponent (totalExponent m 0)).toNat = j
  rw [Int.zero_sub]
  exact within_roundWithAccuracy (by omega) (by omega) hn (shifted_le hk h) s

theorem within_ofNat_unpacked {n m : Nat} {k : Int} (hk : 0 ≤ k) (hn : n < 2 ^ 53)
    (h : m ≤ n * 2 ^ k.toNat) : Within n k (UnpackedFloat.ofNat .binary64 m) := by
  rw [UnpackedFloat.ofNat, UnpackedFloat.ofInt, UnpackedFloat.normalize]
  split
  · next hlt => exact absurd (Int.compare_eq_lt.mp hlt) (Int.not_lt.mpr (Int.natCast_nonneg m))
  · exact .zero .positive
  · exact within_round hk hn h .positive

theorem within_ofScientific {n m : Nat} {k : Int} (hk : 0 ≤ k) (hn : n < 2 ^ 53)
    (h : m ≤ n * 2 ^ k.toNat) : Within n k (UnpackedFloat.ofScientific .binary64 m 0) := by
  by_cases hm : m = 0
  · rw [UnpackedFloat.ofScientific, dif_pos hm]
    exact .zero .positive
  · have hlarge : ¬ (0 : Int) > 2 ^ Format.binary64.exponentBits := by decide
    have hsmall : ¬ (0 : Int) < -(2 ^ Format.binary64.exponentBits + (m.log2 : Int)) := by
      omega
    rw [UnpackedFloat.ofScientific, dif_neg hm, if_neg hlarge, if_neg hsmall,
      if_pos (Int.le_refl 0)]
    have hbits : Format.binary64.mantissaBits = 53 := rfl
    have hone : Within 1 0 (.finite .positive (10 ^ (0 : Int).toNat) 0 (by decide)) := by decide
    refine @within_mul n n 1 k k 0 _ _ (.finite .positive (by decide) ?_ ?_) hone (by omega)
      (by omega) hn ?_
    · rw [hbits]
      omega
    · rw [hbits, Nat.shiftLeft_eq]
      exact shifted_le hk h
    · exact Nat.mul_le_mul_left _ Nat.one_le_two_pow

/-! ## floats -/

section

variable {x y : Float} {n n₁ n₂ : Nat} {k k₁ k₂ : Int}

theorem within_mul_float (hx : Within n₁ k₁ x.toModel.unpack) (hy : Within n₂ k₂ y.toModel.unpack)
    (hk : -1074 ≤ k) (hk' : k ≤ 971) (hexponents : k₁ + k₂ ≤ k) (hn : n < 2 ^ 53)
    (h : n₁ * n₂ ≤ n * 2 ^ (k - (k₁ + k₂)).toNat) : Within n k (x * y).toModel.unpack :=
  within_unpack_pack hk' (within_mul hx hy hk hexponents hn h)

/-- A whole number is rounded to no more than a float above it. -/
theorem within_ofNat {m : Nat} (hk : 0 ≤ k) (hk' : k ≤ 971) (hn : n < 2 ^ 53)
    (h : m ≤ n * 2 ^ k.toNat) : Within n k (Float.ofNat m).toModel.unpack := by
  unfold Float.ofNat OfScientific.ofScientific instOfScientificFloat Float.ofScientific
  dsimp only
  split
  case isTrue hsmall =>
    have hword : Within n k m.toUInt64.toFloat.toModel.unpack := by
      have hvalue : m.toUInt64.toNat = m := Nat.mod_eq_of_lt (by omega)
      refine within_unpack_pack hk' ?_
      rw [UnpackedFloat.ofUInt64, hvalue]
      exact within_ofNat_unpacked hk hn h
    have hone : Within (2 ^ 52) (-52) (Float.ofBits 0x3FF0000000000000).toModel.unpack := by
      decide +kernel
    refine within_mul_float hword hone (by omega) hk' (by omega) hn ?_
    exact Nat.mul_le_mul_left _ (Nat.pow_le_pow_right (by decide) (by omega))
  case isFalse hlarge =>
    exact within_unpack_pack hk' (within_ofScientific hk hn h)

end

end InstallAssistant.Decimal
