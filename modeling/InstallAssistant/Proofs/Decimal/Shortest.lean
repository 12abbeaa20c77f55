import InstallAssistant.Decimal.Shortest
import Mathlib.Algebra.Group.Nat.Defs
import Mathlib.Data.List.TakeWhile

/-!
# InstallAssistant.Proofs.Decimal.Shortest

The shortest digits of a float.  A number has its first digit where it is looked for
(`Neighbourhood.reaches_leadExponent`).  Sixteen places behind that, the steps of the
decimal grid are smaller than the interval of what rounds to the number, so a grid is
found that has a point in it (`exists_firstHit`), and seventeen digits always suffice
(`exists_shortest`).  The digits that are found are at most the end of the interval,
also without the zeros behind them (`strip_high`); so what is printed of a float is not
above the number halfway between the two greatest floats, unless it is the greatest
one (`shortest_bounded`).
-/

namespace InstallAssistant.Decimal

/-! ## powers of ten -/

/-- A power of ten may be divided off on either side. -/
theorem mul_pow_le_iff {a b i : Nat} {k q : Int} (h : k = q + i) :
    a * 10 ^ k.toNat ≤ b * 10 ^ (-k).toNat ↔ a * 10 ^ i * 10 ^ q.toNat ≤ b * 10 ^ (-q).toNat := by
  have hexponents : k.toNat + (-q).toNat = i + q.toNat + (-k).toNat := by omega
  calc a * 10 ^ k.toNat ≤ b * 10 ^ (-k).toNat
      ↔ a * 10 ^ k.toNat * 10 ^ (-q).toNat ≤ b * 10 ^ (-k).toNat * 10 ^ (-q).toNat :=
        (Nat.mul_le_mul_right_iff (Nat.pow_pos (by decide))).symm
    _ ↔ a * 10 ^ i * 10 ^ q.toNat * 10 ^ (-k).toNat ≤ b * 10 ^ (-q).toNat * 10 ^ (-k).toNat := by
        rw [Nat.mul_assoc, ← Nat.pow_add, hexponents, Nat.mul_right_comm b, Nat.mul_assoc (a * _),
          ← Nat.pow_add, Nat.mul_assoc a, ← Nat.pow_add, Nat.add_assoc]
    _ ↔ a * 10 ^ i * 10 ^ q.toNat ≤ b * 10 ^ (-q).toNat :=
        Nat.mul_le_mul_right_iff (Nat.pow_pos (by decide))

namespace Neighbourhood

variable {n : Neighbourhood} {tie : Tie}

/-- Whether a number is at least `10 ^ k`. -/
def Reaches (n : Neighbourhood) (k : Int) : Prop :=
  n.den * 10 ^ k.toNat ≤ n.mid * 10 ^ (-k).toNat

theorem reaches_add_iff {q : Int} {i : Nat} :
    n.Reaches (q + i) ↔ n.den * 10 ^ q.toNat * 10 ^ i ≤ n.mid * 10 ^ (-q).toNat := by
  rw [Reaches, mul_pow_le_iff rfl, Nat.mul_right_comm]

theorem reaches_natCast_iff {k : Nat} : n.Reaches k ↔ n.den * 10 ^ k ≤ n.mid := by
  rw [Reaches, Int.toNat_natCast, Int.toNat_neg_natCast, Nat.pow_zero, Nat.mul_one]

theorem reaches_neg_iff {k : Nat} : n.Reaches (-k) ↔ n.den ≤ n.mid * 10 ^ k := by
  rw [Reaches, Int.neg_neg, Int.toNat_natCast, Int.toNat_neg_natCast, Nat.pow_zero, Nat.mul_one]

/-! ## the first digit -/

theorem leadExponent_of_le (hden : 0 < n.den) (h : n.den ≤ n.mid) :
    n.Reaches n.leadExponent ∧ ¬ n.Reaches (n.leadExponent + 1) := by
  have hlength : 0 < (Nat.toDigits 10 (n.mid / n.den)).length := Nat.length_toDigits_pos
  have hbound : ∀ k, 0 < k →
      ((Nat.toDigits 10 (n.mid / n.den)).length ≤ k ↔ n.mid / n.den < 10 ^ k) :=
    fun k => Nat.length_toDigits_le_iff (by decide)
  rw [leadExponent, if_pos h]
  generalize (Nat.toDigits 10 (n.mid / n.den)).length = len at *
  obtain ⟨k, rfl⟩ := Nat.exists_eq_add_of_le' hlength
  have hlow : 10 ^ k ≤ n.mid / n.den := by
    cases k with
    | zero => exact Nat.div_pos h hden
    | succ k =>
        refine Nat.le_of_not_lt fun hlt => ?_
        exact absurd ((hbound _ (Nat.succ_pos k)).mpr hlt) (Nat.not_succ_le_self _)
  have hhigh : n.mid / n.den < 10 ^ (k + 1) := (hbound _ (Nat.succ_pos k)).mp (Nat.le_refl _)
  rw [Nat.le_div_iff_mul_le hden] at hlow
  rw [Nat.div_lt_iff_lt_mul hden] at hhigh
  have hexponent : ((k + 1 : Nat) : Int) - 1 = k := Int.add_sub_cancel k 1
  rw [hexponent]
  constructor
  · rwa [reaches_natCast_iff, Nat.mul_comm]
  · have hnext := reaches_natCast_iff (n := n) (k := k + 1)
    rw [Int.natCast_succ, Nat.mul_comm] at hnext
    rwa [hnext, Nat.not_le]

/-- The exponent at which a number below one is found to have its first digit. -/
theorem exists_first_place (hmid : 0 < n.mid) (h : n.mid < n.den) :
    ∃ j, ((List.range (bitLength n.den)).find? fun j => decide (n.den ≤ n.mid * 10 ^ j)) =
      some (j + 1) := by
  cases hfind : (List.range (bitLength n.den)).find? fun j => n.den ≤ n.mid * 10 ^ j with
  | none =>
      -- the binary length leaves enough places, because ten is more than two
      have hden : n.den ≠ 0 := by omega
      have hone : 1 ≤ n.den.log2 := (Nat.le_log2 hden).mpr (by omega)
      have hrange : n.den.log2 < bitLength n.den := by
        rw [bitLength, if_neg hden]
        exact Nat.lt_succ_self _
      have hplace : n.den ≤ n.mid * 10 ^ n.den.log2 := by
        calc n.den ≤ 2 ^ (n.den.log2 + 1) := Nat.le_of_lt Nat.lt_log2_self
          _ = 2 * 2 ^ n.den.log2 := Nat.pow_succ'
          _ ≤ 5 ^ n.den.log2 * 2 ^ n.den.log2 := by
              refine Nat.mul_le_mul_right _ (Nat.le_trans (by decide : 2 ≤ 5 ^ 1) ?_)
              exact Nat.pow_le_pow_right (by decide) hone
          _ = 10 ^ n.den.log2 := (Nat.mul_pow 5 2 _).symm
          _ ≤ n.mid * 10 ^ n.den.log2 := Nat.le_mul_of_pos_left _ hmid
      have hall := List.find?_eq_none.mp hfind _ (List.mem_range.mpr hrange)
      exact absurd (decide_eq_true hplace) hall
  | some j =>
      cases j with
      | zero =>
          have hzero := List.find?_some hfind
          rw [Nat.pow_zero, Nat.mul_one] at hzero
          exact absurd h (Nat.not_lt.mpr (of_decide_eq_true hzero))
      | succ j => exact ⟨j, rfl⟩

theorem leadExponent_of_lt (hmid : 0 < n.mid) (h : n.mid < n.den) :
    n.Reaches n.leadExponent ∧ ¬ n.Reaches (n.leadExponent + 1) := by
  obtain ⟨j, hfind⟩ := exists_first_place hmid h
  obtain ⟨hj, -, hbefore⟩ := List.find?_range_eq_some.mp hfind
  have hexponent : Int.negOfNat (j + 1) = -((j + 1 : Nat) : Int) := rfl
  have hnext : -((j + 1 : Nat) : Int) + 1 = -(j : Int) := by omega
  rw [leadExponent, if_neg (Nat.not_le.mpr h), hfind, Option.getD_some, hexponent, hnext,
    reaches_neg_iff, reaches_neg_iff]
  refine ⟨of_decide_eq_true hj, fun hle => ?_⟩
  simpa [hle] using hbefore j (Nat.lt_succ_self j)

/-- **The first digit** is found at its exponent. -/
theorem reaches_leadExponent (hmid : 0 < n.mid) (hden : 0 < n.den) :
    n.Reaches n.leadExponent ∧ ¬ n.Reaches (n.leadExponent + 1) :=
  (Nat.lt_or_ge n.mid n.den).elim (leadExponent_of_lt hmid) (leadExponent_of_le hden)

/-! ## hits -/

theorem holds_of_lt {d : Nat} {q : Int}
    (hlow : n.low * 10 ^ (-q).toNat < d * 10 ^ q.toNat * n.den)
    (hhigh : d * 10 ^ q.toNat * n.den < n.high * 10 ^ (-q).toNat) : n.holds d q = true := by
  rw [holds]
  split
  · simp [Nat.le_of_lt hlow, Nat.le_of_lt hhigh]
  · simp [hlow, hhigh]

theorem high_of_holds {d : Nat} {q : Int} (h : n.holds d q = true) :
    d * 10 ^ q.toNat * n.den ≤ n.high * 10 ^ (-q).toNat := by
  rw [holds] at h
  split at h
  · simp only [Bool.and_eq_true, decide_eq_true_eq] at h
    exact h.2
  · simp only [Bool.and_eq_true, decide_eq_true_eq] at h
    exact Nat.le_of_lt h.2

/-- A hit is one of the two neighbours, and lies in the interval. -/
theorem of_hitAt? {q : Int} {d : Nat} (h : n.hitAt? tie q = some d) :
    n.holds d q = true ∧ d ≤ n.floorAt q + 1 := by
  unfold hitAt? at h
  dsimp only at h
  split at h <;> rename_i hlower hupper
  · obtain rfl := Option.some.inj h
    split
    · exact ⟨hupper, Nat.le_refl _⟩
    · exact ⟨hlower, Nat.le_succ _⟩
  · obtain rfl := Option.some.inj h
    exact ⟨hlower, Nat.le_succ _⟩
  · obtain rfl := Option.some.inj h
    exact ⟨hupper, Nat.le_refl _⟩
  · contradiction

theorem isSome_hitAt? {q : Int}
    (h : n.holds (n.floorAt q) q = true ∨ n.holds (n.floorAt q + 1) q = true) :
    (n.hitAt? tie q).isSome = true := by
  unfold hitAt?
  dsimp only
  split <;> simp_all

/-- The first hit is found where there is one to be found. -/
theorem exists_firstHit {q : Int} (most : Nat) (h : (n.hitAt? tie (q - most)).isSome = true) :
    ∃ i ≤ most, ∃ d, n.firstHit tie (most + 1) q = some ⟨d, q - i⟩ ∧
      n.hitAt? tie (q - i) = some d := by
  induction most generalizing q with
  | zero =>
      rw [Int.natCast_zero, Int.sub_zero] at h
      obtain ⟨d, hd⟩ := Option.isSome_iff_exists.mp h
      exact ⟨0, Nat.le_refl _, d, by rw [firstHit, hd, Int.natCast_zero, Int.sub_zero], by simpa⟩
  | succ most ih =>
      cases hq : n.hitAt? tie q with
      | some d =>
          exact ⟨0, Nat.zero_le _, d, by rw [firstHit, hq, Int.natCast_zero, Int.sub_zero], by simpa⟩
      | none =>
          have hstep : ∀ i : Nat, q - (i + 1 : Nat) = q - 1 - i := fun i => by omega
          rw [hstep] at h
          obtain ⟨i, hi, d, hfirst, hd⟩ := ih h
          refine ⟨i + 1, Nat.succ_le_succ hi, d, ?_, ?_⟩
          · rw [firstHit, hq, hstep]
            exact hfirst
          · rw [hstep]
            exact hd

end Neighbourhood

/-! ## seventeen digits -/

open Neighbourhood

section

variable {m : Nat} {e : Int} {tie : Tie}

/-- How far the interval of a number reaches below it: half of the unit, or a quarter where the
numbers below are twice as dense. -/
theorem exists_low_neighbourhood (m : Nat) (e : Int) :
    ∃ below, (Format.double.neighbourhood m e).low = (4 * m - below) * 2 ^ (e - 2).toNat ∧
      (below = 2 ∨ below = 1 ∧ m = 2 ^ 52) := by
  rw [Format.neighbourhood]
  dsimp only
  split
  · next h => exact ⟨1, rfl, .inr ⟨rfl, h.1⟩⟩
  · exact ⟨2, rfl, .inl rfl⟩

theorem den_neighbourhood_pos : 0 < (Format.double.neighbourhood m e).den :=
  Nat.two_pow_pos (2 - e).toNat

/-- Steps of `a` go at most so far between `4 · x - below · s` and `4 · x + 2 · s`. -/
theorem step_between {x s a below : Nat} (hstep : 0 < a) (hx : s ≤ x)
    (hbelow : below = 2 ∧ x ≤ 2 ^ 53 * s ∨ below = 1 ∧ x = 2 ^ 52 * s) (h : a * 10 ^ 16 ≤ 4 * x) :
    ∃ d, (d = 4 * x / a ∨ d = 4 * x / a + 1) ∧ 4 * x - below * s < d * a ∧
      d * a < 4 * x + 2 * s := by
  have hdivide := Nat.div_add_mod' (4 * x) a
  have hrest := Nat.mod_lt (4 * x) hstep
  have hnext := Nat.add_one_mul (4 * x / a) a
  generalize 4 * x / a = d at *
  generalize 4 * x % a = r at *
  by_cases hnear : r < below * s
  · refine ⟨d, .inl rfl, ?_⟩
    obtain ⟨rfl, _⟩ | ⟨rfl, _⟩ := hbelow <;> omega
  · refine ⟨d + 1, .inr rfl, ?_⟩
    obtain ⟨rfl, _⟩ | ⟨rfl, _⟩ := hbelow <;> omega

/-- **A grid sixteen places finer than the number** has a hit: its steps are smaller than the
interval of what rounds to the number. -/
theorem isSome_hitAt?_of_reaches (hpos : 0 < m) (hm : m < 2 ^ 53) {q : Int}
    (h : (Format.double.neighbourhood m e).Reaches (q + 16)) :
    ((Format.double.neighbourhood m e).hitAt? tie q).isSome = true := by
  have hreach := (reaches_add_iff (i := 16)).mp h
  have hstep : 0 < (Format.double.neighbourhood m e).den * 10 ^ q.toNat :=
    Nat.mul_pos den_neighbourhood_pos (Nat.pow_pos (by decide))
  obtain ⟨below, hlow, hbelow⟩ := exists_low_neighbourhood m e
  have hmid : (Format.double.neighbourhood m e).mid = 4 * m * 2 ^ (e - 2).toNat := rfl
  have hhigh : (Format.double.neighbourhood m e).high = (4 * m + 2) * 2 ^ (e - 2).toNat := rfl
  obtain ⟨s, hs⟩ : ∃ s, s = 2 ^ (e - 2).toNat * 10 ^ (-q).toNat := ⟨_, rfl⟩
  have hlow' : (Format.double.neighbourhood m e).low * 10 ^ (-q).toNat =
      4 * (m * s) - below * s := by
    rw [hlow, Nat.mul_assoc, ← hs, Nat.sub_mul, Nat.mul_assoc]
  have hmid' : (Format.double.neighbourhood m e).mid * 10 ^ (-q).toNat = 4 * (m * s) := by
    rw [hmid, Nat.mul_assoc, ← hs, Nat.mul_assoc]
  have hhigh' : (Format.double.neighbourhood m e).high * 10 ^ (-q).toNat =
      4 * (m * s) + 2 * s := by
    rw [hhigh, Nat.mul_assoc, ← hs, Nat.add_mul, Nat.mul_assoc]
  have hbelow' : below = 2 ∧ m * s ≤ 2 ^ 53 * s ∨ below = 1 ∧ m * s = 2 ^ 52 * s :=
    hbelow.imp (fun h => ⟨h, Nat.mul_le_mul_right _ (Nat.le_of_lt hm)⟩)
      fun h => ⟨h.1, by rw [h.2]⟩
  rw [hmid'] at hreach
  obtain ⟨d, hd, hlower, hupper⟩ := step_between hstep (Nat.le_mul_of_pos_left s hpos)
    hbelow' hreach
  have hholds : (Format.double.neighbourhood m e).holds d q = true := by
    apply holds_of_lt
    · rwa [hlow', Nat.mul_assoc, Nat.mul_comm (10 ^ q.toNat)]
    · rwa [hhigh', Nat.mul_assoc, Nat.mul_comm (10 ^ q.toNat)]
  have hfloor : (Format.double.neighbourhood m e).floorAt q =
      4 * (m * s) / ((Format.double.neighbourhood m e).den * 10 ^ q.toNat) := by
    rw [floorAt, hmid']
  rw [← hfloor] at hd
  obtain rfl | rfl := hd
  · exact isSome_hitAt? (.inl hholds)
  · exact isSome_hitAt? (.inr hholds)

theorem floorAt_lt {n : Neighbourhood} (hden : 0 < n.den) {k : Int} (h : ¬ n.Reaches (k + 1))
    (i : Nat) : n.floorAt (k - i) < 10 ^ (i + 1) := by
  have hexponent : k + 1 = k - i + (i + 1 : Nat) := by omega
  rw [hexponent, reaches_add_iff, Nat.not_le] at h
  rw [floorAt, Nat.div_lt_iff_lt_mul (Nat.mul_pos hden (Nat.pow_pos (by decide)))]
  rwa [Nat.mul_comm (10 ^ (i + 1))]

/-- **Seventeen digits suffice**: the shortest digits of a number are those of a hit, without the
zeros at their end. -/
theorem exists_shortest (hpos : 0 < m) (hm : m < 2 ^ 53) (e : Int) (tie : Tie) :
    ∃ d : Digits, Format.double.shortest tie m e = d.strip ∧ d.digits ≤ 10 ^ 17 ∧
      (Format.double.neighbourhood m e).holds d.digits d.exponent = true := by
  have hmid : 0 < (Format.double.neighbourhood m e).mid :=
    Nat.mul_pos (Nat.mul_pos (by decide) hpos) (Nat.two_pow_pos _)
  obtain ⟨hreach, hstop⟩ := reaches_leadExponent hmid den_neighbourhood_pos
  rw [← Int.sub_add_cancel (leadExponent _) 16] at hreach
  have hlast : (hitAt? _ tie (leadExponent _ - (16 : Nat))).isSome = true :=
    isSome_hitAt?_of_reaches hpos hm hreach
  obtain ⟨i, hi, d, hfirst, hd⟩ := exists_firstHit 16 hlast
  obtain ⟨hholds, hnear⟩ := of_hitAt? hd
  refine ⟨⟨d, _⟩, ?_, ?_, hholds⟩
  · rw [Format.shortest, if_neg (Nat.ne_of_gt hpos)]
    simp only [hfirst, Option.getD_some]
  · calc d ≤ (Format.double.neighbourhood m e).floorAt (leadExponent _ - i) + 1 := hnear
      _ ≤ 10 ^ (i + 1) := floorAt_lt den_neighbourhood_pos hstop i
      _ ≤ 10 ^ 17 := Nat.pow_le_pow_right (by decide) (Nat.succ_le_succ hi)

/-! ## without zeros at the end -/

theorem exists_eq_append_zeros (written : List Char) :
    ∃ front, written =
      front ++ List.replicate (written.reverse.takeWhile (· == '0')).length '0' := by
  have hzeros : (written.reverse.takeWhile (· == '0')).reverse =
      List.replicate (written.reverse.takeWhile (· == '0')).length '0' := by
    refine List.eq_replicate_iff.mpr ⟨List.length_reverse, fun c hc => ?_⟩
    simpa using List.mem_takeWhile_imp (List.mem_reverse.mp hc)
  refine ⟨(written.reverse.dropWhile (· == '0')).reverse, ?_⟩
  rw [← hzeros, ← List.reverse_append, List.takeWhile_append_dropWhile, List.reverse_reverse]

/-- Digits without the zeros at their end, and those zeros. -/
theorem Digits.exists_strip {d : Digits} (h : d.digits ≠ 0) :
    ∃ zeros : Nat, d.digits = d.strip.digits * 10 ^ zeros ∧
      d.strip.exponent = d.exponent + zeros := by
  obtain ⟨front, hfront⟩ := exists_eq_append_zeros (Nat.toDigits 10 d.digits)
  have hvalue := Nat.ofDigitChars_ten_toDigits (n := d.digits)
  rw [hfront, Nat.ofDigitChars_append, Nat.ofDigitChars_replicate_zero] at hvalue
  rw [strip, if_neg h]
  exact ⟨_, (Nat.div_mul_cancel (⟨_, hvalue.symm⟩)).symm, rfl⟩

theorem Digits.strip_of_eq_zero {d : Digits} (h : d.digits = 0) : d.strip = ⟨0, 0⟩ := if_pos h

theorem Digits.digits_strip_le (d : Digits) : d.strip.digits ≤ d.digits := by
  by_cases h : d.digits = 0
  · rw [strip_of_eq_zero h]
    exact Nat.zero_le _
  · rw [strip, if_neg h]
    exact Nat.div_le_self _ _

theorem Digits.exponent_strip_of_eq_zero {d : Digits} (h : d.strip.digits = 0) :
    d.strip.exponent = 0 := by
  by_cases hzero : d.digits = 0
  · rw [strip_of_eq_zero hzero]
  · obtain ⟨zeros, hdigits, -⟩ := exists_strip hzero
    rw [h, Nat.zero_mul] at hdigits
    contradiction

theorem exponent_shortest_of_eq_zero {f : Format}
    (h : (f.shortest tie m e).digits = 0) : (f.shortest tie m e).exponent = 0 := by
  unfold Format.shortest at h ⊢
  split at h
  · next hzero => rw [if_pos hzero]
  · next hzero =>
    rw [if_neg hzero]
    exact Digits.exponent_strip_of_eq_zero h

/-- **No number is printed as more than the end of its interval.** -/
theorem strip_high {n : Neighbourhood} {d : Digits} (h : n.holds d.digits d.exponent = true) :
    d.strip.digits * n.den * 10 ^ d.strip.exponent.toNat ≤
      n.high * 10 ^ (-d.strip.exponent).toNat := by
  by_cases hzero : d.digits = 0
  · rw [Digits.strip_of_eq_zero hzero, Nat.zero_mul, Nat.zero_mul]
    exact Nat.zero_le _
  · obtain ⟨zeros, hdigits, hexponent⟩ := d.exists_strip hzero
    have hhigh := high_of_holds h
    rw [mul_pow_le_iff hexponent, Nat.mul_right_comm _ n.den, ← hdigits, Nat.mul_right_comm]
    exact hhigh

/-- The number halfway between the two greatest floats. -/
def nearGreatest : Nat := (2 ^ 54 - 3) * 2 ^ 970

/-- No float but the greatest one has an interval that reaches further. -/
theorem high_le_nearGreatest (hm : m < 2 ^ 53) (he : e ≤ 971) (h : m ≠ 2 ^ 53 - 1 ∨ e ≠ 971) :
    (Format.double.neighbourhood m e).high ≤ nearGreatest := by
  have hhigh : (Format.double.neighbourhood m e).high = (4 * m + 2) * 2 ^ (e - 2).toNat := rfl
  rw [hhigh]
  by_cases htop : e = 971
  · have hm' : 4 * m + 2 ≤ 2 ^ 55 - 6 := by omega
    rw [htop]
    exact Nat.le_trans (Nat.mul_le_mul_right _ hm') (by decide +kernel)
  · have hm' : 4 * m + 2 ≤ 2 ^ 55 := by omega
    have he' : 2 ^ (e - 2).toNat ≤ 2 ^ ((970 : Int) - 2).toNat :=
      Nat.pow_le_pow_right (by decide) (by omega)
    exact Nat.le_trans (Nat.mul_le_mul hm' he') (by decide +kernel)

/-- **What is printed of a float** has at most seventeen digits, and its value is not above the
number halfway between the two greatest floats, unless it is the greatest float. -/
theorem shortest_bounded (hm : m < 2 ^ 53) (he : e ≤ 971) (h : m ≠ 2 ^ 53 - 1 ∨ e ≠ 971)
    (tie : Tie) :
    let d := Format.double.shortest tie m e
    d.digits ≤ 10 ^ 17 ∧ (0 ≤ d.exponent → d.digits * 10 ^ d.exponent.toNat ≤ nearGreatest) := by
  intro d
  by_cases hzero : m = 0
  · have hd : d = ⟨0, 0⟩ := if_pos hzero
    rw [hd]
    exact ⟨Nat.zero_le _, fun _ => by rw [Nat.zero_mul]; exact Nat.zero_le _⟩
  · obtain ⟨c, hc, hdigits, hholds⟩ := exists_shortest (Nat.pos_of_ne_zero hzero) hm e tie
    have hd : d = c.strip := hc
    have hhigh := strip_high hholds
    rw [← hd] at hhigh
    refine ⟨hd ▸ Nat.le_trans c.digits_strip_le hdigits, fun hexponent => ?_⟩
    have hnone : (-d.exponent).toNat = 0 := by omega
    rw [hnone, Nat.pow_zero, Nat.mul_one, Nat.mul_right_comm] at hhigh
    calc d.digits * 10 ^ d.exponent.toNat
        ≤ d.digits * 10 ^ d.exponent.toNat * (Format.double.neighbourhood m e).den :=
          Nat.le_mul_of_pos_right _ den_neighbourhood_pos
      _ ≤ (Format.double.neighbourhood m e).high := hhigh
      _ ≤ nearGreatest := high_le_nearGreatest hm he h

end

end InstallAssistant.Decimal
