import InstallAssistant.Proofs.Json.Number
import InstallAssistant.Proofs.Json.Scale

/-!
# InstallAssistant.Proofs.Json.Float

Finite floats as number literals.  A float is printed in positional notation or with an
exponent; both texts are those of a literal (`Literal.print_ofDigits`), which is well
formed (`Literal.wellFormed_ofDigits`).  The value of a literal may be too large for a
float, but that of what is printed of a float is not (`Literal.readable_shortest`,
`Literal.isSome_size?_ofDigits`).  So a float that is finite is printed as a literal that
has a value (`Number.exists_literal_float`), and any other is no number at all
(`ofFloat_eq`).
-/

namespace InstallAssistant.Json

open Decimal

namespace Literal

variable {negative : Bool} {digits : List Char} {k : Int}

/-! ## the literal of digits -/

/-- The first digits, with zeros in the place of digits that are not there. -/
def padded (n : Nat) (digits : List Char) : List Char :=
  digits.take n ++ List.replicate (n - digits.length) '0'

/-- The literal of digits in positional notation. -/
def ofPositional (negative : Bool) (digits : List Char) (k : Int) : Literal :=
  if k < 0 then ⟨negative, ['0'], List.replicate ((-k).toNat - 1) '0' ++ digits, none⟩
  else
    match digits.drop (k.toNat + 1) with
    | [] => ⟨negative, padded (k.toNat + 1) digits, ['0'], none⟩
    | fraction => ⟨negative, padded (k.toNat + 1) digits, fraction, none⟩

/-- The literal of digits with an exponent. -/
def ofScientific (negative : Bool) (digits : List Char) (k : Int) : Literal :=
  ⟨negative, digits.take 1, digits.drop 1, some (decide (k < 0), Nat.toDigits 10 k.natAbs)⟩

/-- The literal that digits are written as. -/
def ofDigits (negative : Bool) (d : Digits) : Literal :=
  let digits := Nat.toDigits 10 d.digits
  let k := d.exponent + (digits.length - 1 : Nat)
  if document.positional k then ofPositional negative digits k else ofScientific negative digits k

/-- The text of a sign. -/
abbrev sign (negative : Bool) : List Char := if negative then ['-'] else []

theorem printFraction_of_ne_nil {ds : List Char} (h : ds ≠ []) : printFraction ds = '.' :: ds := by
  cases ds with
  | nil => contradiction
  | cons d ds => rfl

theorem print_ofPositional (hdigits : digits ≠ []) :
    (ofPositional negative digits k).print =
      sign negative ++ document.writePositional digits k := by
  rw [ofPositional, Style.writePositional]
  by_cases hneg : k < 0
  · rw [if_pos hneg, if_pos hneg, print, printFraction_of_ne_nil (by simp [hdigits])]
    simp [printExponent]
  · rw [if_neg hneg, if_neg hneg]
    dsimp only
    cases hdrop : digits.drop (k.toNat + 1) with
    | nil => simp [print, padded, printFraction, printExponent, document]
    | cons c cs => simp [print, padded, printFraction, printExponent]

theorem print_ofScientific (hdigits : digits ≠ []) :
    (ofScientific negative digits k).print =
      sign negative ++ document.writeScientific digits k := by
  obtain ⟨d, ds, rfl⟩ := List.exists_cons_of_ne_nil hdigits
  rw [ofScientific, print]
  cases ds <;> by_cases hneg : k < 0 <;>
    simp [Style.writeScientific, printFraction, printExponent, hneg, document]

theorem print_ofDigits (negative : Bool) (d : Digits) :
    (ofDigits negative d).print = sign negative ++ document.writeDigits d := by
  rw [ofDigits, Style.writeDigits]
  split
  · exact print_ofPositional Nat.toDigits_ne_nil
  · exact print_ofScientific Nat.toDigits_ne_nil

/-! ### it is well formed -/

/-- Digits that no zero leads, other than the digit of zero at its own place. -/
def Leading (digits : List Char) (k : Int) : Prop :=
  digits = ['0'] ∧ k = 0 ∨ digits ≠ [] ∧ digits.head? ≠ some '0'

theorem isDigit_of_mem_zeros {n : Nat} {c : Char} (h : c ∈ List.replicate n '0') :
    c.isDigit = true := by
  rw [List.eq_of_mem_replicate h]
  rfl

theorem isDigit_of_mem_padded (hdigits : ∀ c ∈ digits, c.isDigit = true) (n : Nat) :
    ∀ c ∈ padded n digits, c.isDigit = true :=
  List.forall_mem_append.mpr
    ⟨fun c hc => hdigits c (List.mem_of_mem_take hc), fun _ => isDigit_of_mem_zeros⟩

theorem length_padded (n : Nat) (digits : List Char) : (padded n digits).length = n := by
  rw [padded, List.length_append, List.length_take, List.length_replicate]
  omega

theorem leading_padded (hlead : Leading digits k) :
    padded (k.toNat + 1) digits = ['0'] ∨
      padded (k.toNat + 1) digits ≠ [] ∧ (padded (k.toNat + 1) digits).head? ≠ some '0' := by
  obtain ⟨rfl, rfl⟩ | ⟨hne, hhead⟩ := hlead
  · exact .inl rfl
  · obtain ⟨d, ds, rfl⟩ := List.exists_cons_of_ne_nil hne
    exact .inr ⟨List.cons_ne_nil d _, hhead⟩

theorem wellFormed_ofPositional (hlead : Leading digits k)
    (hdigits : ∀ c ∈ digits, c.isDigit = true) : (ofPositional negative digits k).WellFormed := by
  have hzeros : ∀ n, ∀ c ∈ List.replicate n '0', c.isDigit = true := fun _ _ => isDigit_of_mem_zeros
  have hwhole := isDigit_of_mem_padded hdigits (k.toNat + 1)
  rw [ofPositional]
  split
  · have hfraction := List.forall_mem_append.mpr ⟨hzeros ((-k).toNat - 1), hdigits⟩
    exact ⟨.inl rfl, List.forall_mem_append.mpr ⟨hzeros 1, hfraction⟩, nofun⟩
  · split
    · exact ⟨leading_padded hlead, List.forall_mem_append.mpr ⟨hwhole, hzeros 1⟩, nofun⟩
    · refine ⟨leading_padded hlead, List.forall_mem_append.mpr ⟨hwhole, fun c hc => ?_⟩, nofun⟩
      exact hdigits c (List.mem_of_mem_drop hc)

theorem wellFormed_ofScientific (hlead : Leading digits k)
    (hdigits : ∀ c ∈ digits, c.isDigit = true) : (ofScientific negative digits k).WellFormed where
  whole := by
    obtain ⟨rfl, rfl⟩ | ⟨hne, hhead⟩ := hlead
    · exact .inl rfl
    · obtain ⟨d, ds, rfl⟩ := List.exists_cons_of_ne_nil hne
      exact .inr ⟨List.cons_ne_nil d _, hhead⟩
  digits := by
    rw [ofScientific, List.take_append_drop]
    exact hdigits
  exponent := by
    rintro _ ⟨⟩
    exact ⟨Nat.toDigits_ne_nil, fun _ => isDigit_of_mem_toDigits⟩

theorem leading_toDigits {n : Nat} (h : n = 0 → k = 0) : Leading (Nat.toDigits 10 n) k := by
  by_cases hn : n = 0
  · exact .inl ⟨by rw [hn, Nat.toDigits_zero], h hn⟩
  · exact .inr ⟨Nat.toDigits_ne_nil, head?_toDigits_ne_zero (Nat.pos_of_ne_zero hn)⟩

theorem wellFormed_ofDigits {d : Digits} (h : d.digits = 0 → d.exponent = 0) :
    (ofDigits negative d).WellFormed := by
  have hlead : Leading (Nat.toDigits 10 d.digits)
      (d.exponent + ((Nat.toDigits 10 d.digits).length - 1 : Nat)) := by
    refine leading_toDigits fun hzero => ?_
    rw [h hzero, hzero, Nat.toDigits_zero]
    rfl
  rw [ofDigits]
  split
  · exact wellFormed_ofPositional hlead fun _ => isDigit_of_mem_toDigits
  · exact wellFormed_ofScientific hlead fun _ => isDigit_of_mem_toDigits

/-! ## the value -/

theorem fst_gather_lt {n : Nat} (hn : n < wordBound) (cs : List Char) :
    (gather n cs).1 < wordBound := by
  induction cs generalizing n with
  | nil => exact hn
  | cons c cs ih =>
      rw [gather]
      dsimp only
      split
      · next hnext => exact ih hnext
      · exact hn

theorem le_ofDigitChars (cs : List Char) (n : Nat) : n ≤ Nat.ofDigitChars 10 cs n := by
  rw [Nat.ofDigitChars_eq_ofDigitChars_zero]
  exact Nat.le_add_right_of_le (Nat.le_mul_of_pos_left n (Nat.pow_pos (by decide)))

/-- Digits that fit are all gathered. -/
theorem gather_of_lt {n : Nat} {cs : List Char} (h : Nat.ofDigitChars 10 cs n < wordBound) :
    gather n cs = (Nat.ofDigitChars 10 cs n, cs.length) := by
  induction cs generalizing n with
  | nil => rfl
  | cons c cs ih =>
      rw [Nat.ofDigitChars_cons, Nat.mul_comm] at h
      rw [gather]
      dsimp only
      rw [if_pos (Nat.lt_of_le_of_lt (le_ofDigitChars cs _) h), ih h, Nat.ofDigitChars_cons,
        Nat.mul_comm 10]
      rfl

theorem exponentValue?_nonpos {ds : List Char} {e : Int} (h : exponentValue? true ds = some e) :
    e ≤ 0 := by
  rw [exponentValue?] at h
  split at h
  · obtain rfl := Option.some.inj h
    exact Int.neg_nonpos_of_nonneg (Int.natCast_nonneg _)
  · contradiction

theorem exponentValue?_toDigits {k : Nat} (hk : k < 2 ^ 31) :
    exponentValue? false (Nat.toDigits 10 k) = some (k : Int) := by
  have hvalue : digitsValue (Nat.toDigits 10 k) = k := Nat.ofDigitChars_ten_toDigits
  rw [exponentValue?, hvalue]
  exact if_pos hk

/-- A literal that has no exponent, or a negative one, has a value. -/
theorem isSome_size?_of_small {l : Literal} (hwhole : Nat.ofDigitChars 10 l.whole 0 < wordBound)
    (hexponent : ∀ e ∈ l.exponent, e.1 = true) : l.size?.isSome = true := by
  have hgather := fst_gather_lt hwhole l.fraction
  unfold size?
  rw [gather_of_lt hwhole]
  dsimp only
  generalize gather (Nat.ofDigitChars 10 l.whole 0) l.fraction = gathered at *
  split
  · exact isSome_scale?_of_nonpos hgather (by omega)
  · next negative ds hsome =>
    obtain rfl : negative = true := hexponent _ hsome
    split
    · next e he =>
      have hnonpos := exponentValue?_nonpos he
      exact isSome_scale?_of_nonpos hgather (by omega)
    · rw [if_pos (.inr rfl)]
      rfl

/-- A literal whose digits fit, with an exponent that is not negative. -/
theorem size?_of_exponent {l : Literal} {n k : Nat}
    (hvalue : Nat.ofDigitChars 10 (l.whole ++ l.fraction) 0 = n) (hn : n < wordBound)
    (hexponent : l.exponent = some (false, Nat.toDigits 10 k)) (hk : k < 2 ^ 31) :
    l.size? = scale? (Float.ofNat n) (k - l.fraction.length) := by
  rw [Nat.ofDigitChars_append] at hvalue
  have hwhole : Nat.ofDigitChars 10 l.whole 0 < wordBound :=
    Nat.lt_of_le_of_lt (le_ofDigitChars l.fraction _) (hvalue.symm ▸ hn)
  have hgather := gather_of_lt (hvalue.symm ▸ hn)
  rw [hvalue] at hgather
  rw [size?, gather_of_lt hwhole]
  dsimp only
  rw [hgather, hexponent]
  dsimp only
  rw [exponentValue?_toDigits hk]
  dsimp only
  congr 1
  omega

/-! ### of printed digits -/

/-- Digits whose value is not too large when they are read back. -/
structure Readable (d : Digits) : Prop where
  digits : d.digits ≤ 10 ^ 17
  zero : d.digits = 0 → d.exponent = 0
  exponent : d.exponent ≤ 308
  scale : (scale? (Float.ofNat d.digits) d.exponent).isSome = true

theorem ofDigitChars_lt (hdigits : ∀ c ∈ digits, c.isDigit = true) :
    Nat.ofDigitChars 10 digits 0 < 10 ^ digits.length := by
  induction digits with
  | nil => decide
  | cons c cs ih =>
      obtain ⟨hc, hcs⟩ := List.forall_mem_cons.mp hdigits
      have hdigit : c.toNat - '0'.toNat ≤ 9 := by
        simp only [Char.isDigit, Bool.and_eq_true, decide_eq_true_eq,
          UInt32.le_iff_toNat_le] at hc
        exact Nat.sub_le_sub_right hc.2 48
      have hrest := ih hcs
      rw [Nat.ofDigitChars_cons, Nat.ofDigitChars_eq_ofDigitChars_zero, Nat.mul_zero, Nat.zero_add,
        List.length_cons, Nat.pow_succ]
      have hfirst := Nat.mul_le_mul_left (10 ^ cs.length) hdigit
      omega

theorem isSome_size?_ofPositional (hdigits : ∀ c ∈ digits, c.isDigit = true) (hk : k ≤ 15) :
    (ofPositional negative digits k).size?.isSome = true := by
  have hpadded := ofDigitChars_lt (isDigit_of_mem_padded hdigits (k.toNat + 1))
  have hwhole : Nat.ofDigitChars 10 (padded (k.toNat + 1) digits) 0 < wordBound := by
    rw [length_padded] at hpadded
    calc _ < 10 ^ (k.toNat + 1) := hpadded
      _ ≤ 10 ^ 16 := Nat.pow_le_pow_right (by decide) (by omega)
      _ ≤ wordBound := by decide
  rw [ofPositional]
  split
  · exact isSome_size?_of_small (by decide : Nat.ofDigitChars 10 ['0'] 0 < wordBound) nofun
  · split
    · exact isSome_size?_of_small hwhole nofun
    · exact isSome_size?_of_small hwhole nofun

theorem isSome_size?_ofScientific {d : Digits} (hd : Readable d) :
    (ofScientific negative (Nat.toDigits 10 d.digits)
      (d.exponent + ((Nat.toDigits 10 d.digits).length - 1 : Nat))).size?.isSome = true := by
  have hlength : (Nat.toDigits 10 d.digits).length ≤ 18 :=
    (Nat.length_toDigits_le_iff (by decide) (by decide)).mpr
      (Nat.lt_of_le_of_lt hd.digits (by decide))
  have hpositive : 0 < (Nat.toDigits 10 d.digits).length := Nat.length_toDigits_pos
  have hexponent := hd.exponent
  generalize hk : d.exponent + ((Nat.toDigits 10 d.digits).length - 1 : Nat) = k
  by_cases hneg : k < 0
  · have hfirst : ((Nat.toDigits 10 d.digits).take 1).length ≤ 1 := List.length_take_le 1 _
    have hlt : Nat.ofDigitChars 10 ((Nat.toDigits 10 d.digits).take 1) 0 < 10 ^ 1 :=
      Nat.lt_of_lt_of_le
        (ofDigitChars_lt fun c hc => isDigit_of_mem_toDigits (List.mem_of_mem_take hc))
        (Nat.pow_le_pow_right (by decide) hfirst)
    refine isSome_size?_of_small (Nat.lt_trans hlt (by decide)) ?_
    rintro _ ⟨⟩
    exact decide_eq_true hneg
  · have hall : (ofScientific negative (Nat.toDigits 10 d.digits) k).whole ++
        (ofScientific negative (Nat.toDigits 10 d.digits) k).fraction = Nat.toDigits 10 d.digits :=
      List.take_append_drop 1 _
    have hvalue : Nat.ofDigitChars 10 ((ofScientific negative (Nat.toDigits 10 d.digits) k).whole ++
        (ofScientific negative (Nat.toDigits 10 d.digits) k).fraction) 0 = d.digits := by
      rw [hall, Nat.ofDigitChars_ten_toDigits]
    have hexponent' : (ofScientific negative (Nat.toDigits 10 d.digits) k).exponent =
        some (false, Nat.toDigits 10 k.toNat) := by
      have hnatAbs : k.natAbs = k.toNat := by omega
      rw [ofScientific, hnatAbs, decide_eq_false hneg]
    have hplaces : (k.toNat : Int) -
        (ofScientific negative (Nat.toDigits 10 d.digits) k).fraction.length = d.exponent := by
      rw [ofScientific, List.length_drop]
      omega
    have hfit : d.digits < wordBound := Nat.lt_of_le_of_lt hd.digits (by decide)
    rw [size?_of_exponent hvalue hfit hexponent' (by omega), hplaces]
    exact hd.scale

theorem isSome_size?_ofDigits {d : Digits} (hd : Readable d) :
    (ofDigits negative d).size?.isSome = true := by
  rw [ofDigits]
  split
  · next hpositional =>
    have hk := of_decide_eq_true hpositional
    exact isSome_size?_ofPositional (fun _ => isDigit_of_mem_toDigits) hk.2
  · exact isSome_size?_ofScientific hd

theorem inRange_greatest : InRange (Float.ofNat 17976931348623157 * powerOfTen 292) := by
  unfold InRange
  decide +kernel

/-- **What a float is printed as** is not too large when it is read back. -/
theorem readable_shortest {m : Nat} {e : Int} (hm : m < 2 ^ 53) (he : e ≤ 971) :
    Readable (Format.double.shortest .toEven m e) := by
  by_cases hgreatest : m = 2 ^ 53 - 1 ∧ e = 971
  · have hdigits : Format.double.shortest .toEven (2 ^ 53 - 1) 971 = ⟨17976931348623157, 292⟩ := by
      decide +kernel
    rw [hgreatest.1, hgreatest.2, hdigits]
    refine ⟨by decide, nofun, by decide, isSome_scale?_of_inRange (by decide) ?_⟩
    rw [scaleDown, if_pos (by decide), if_neg (by decide)]
    exact inRange_greatest
  · obtain ⟨hdigits, hvalue⟩ := shortest_bounded hm he (by omega) .toEven
    refine ⟨hdigits, exponent_shortest_of_eq_zero, ?_, ?_⟩
    · by_contra hlarge
      have hzero := eq_zero_of_le (by omega) (hvalue (by omega))
      rw [exponent_shortest_of_eq_zero hzero] at hlarge
      contradiction
    · rcases Int.le_total 0 (Format.double.shortest .toEven m e).exponent with hpos | hneg
      · exact isSome_scale?_of_le hdigits hpos (hvalue hpos)
      · exact isSome_scale?_of_nonpos (Nat.lt_of_le_of_lt hdigits (by decide)) hneg

theorem isSome_value?_of_size? {l : Literal} (h : l.size?.isSome = true) :
    l.value?.isSome = true := by
  rw [value?]
  split
  · rfl
  split
  · rfl
  · rwa [Option.isSome_map]

end Literal

/-! ## finite numbers -/

/-- Whether a number is no float, or a finite one. -/
def Number.isFinite : Number → Bool
  | .float x => match (Decimal.ofFloat x).2 with
    | .finite .. => true
    | _ => false
  | _ => true

/-- The exponent field of a word tells whether its number is finite. -/
theorem isFinite_unpack (word : BitVec 64) :
    (Float.Model.UnpackedFloat.unpack .binary64 word).isFinite =
      !decide (word.toNat / 2 ^ 52 % 2 ^ 11 = 2047) := by
  have hfield : (@Float.Model.UnpackedFloat.unpackExponent .binary64 word).toNat =
      word.toNat / 2 ^ 52 % 2 ^ 11 := by
    simp [Float.Model.UnpackedFloat.unpackExponent, Nat.shiftRight_eq_div_pow]
  have htop : @Float.Model.UnpackedFloat.unpackExponent .binary64 word = -1#11 ↔
      word.toNat / 2 ^ 52 % 2 ^ 11 = 2047 := by
    rw [← hfield]
    exact BitVec.toNat_inj.symm
  rw [unpack_of_fields rfl rfl]
  dsimp only
  by_cases h : word.toNat / 2 ^ 52 % 2 ^ 11 = 2047
  · rw [if_pos (htop.mpr h), decide_eq_true h]
    split <;> rfl
  · rw [if_neg (mt htop.mp h), decide_eq_false h]
    by_cases hbottom : @Float.Model.UnpackedFloat.unpackExponent .binary64 word = 0#11
    · rw [if_pos hbottom]
      by_cases hfraction : @Float.Model.UnpackedFloat.unpackMantissa .binary64 word = 0#52
      · rw [dif_pos hfraction]
        rfl
      · rw [dif_neg hfraction]
        rfl
    · rw [if_neg hbottom]
      rfl

theorem Number.isFinite_float (x : Float) : (Number.float x).isFinite = x.isFinite := by
  have hx : x.isFinite = !decide (x.toBits.toNat / 2 ^ 52 % 2 ^ 11 = 2047) :=
    isFinite_unpack x.toBits.toBitVec
  have htop : Format.double.topField = 2047 := rfl
  have hprecision : Format.double.precision - 1 = 52 := rfl
  have hbits : Format.double.exponentBits = 11 := rfl
  rw [hx]
  simp only [isFinite, Decimal.ofFloat, Format.unpack, htop, hprecision, hbits]
  by_cases hfield : x.toBits.toNat / 2 ^ 52 % 2 ^ 11 = 2047
  · rw [if_pos hfield, decide_eq_true hfield]
    by_cases hfraction : x.toBits.toNat % 2 ^ 52 = 0
    · rw [if_pos hfraction]
      rfl
    · rw [if_neg hfraction]
      rfl
  · rw [if_neg hfield, decide_eq_false hfield]
    by_cases hzero : x.toBits.toNat / 2 ^ 52 % 2 ^ 11 = 0
    · rw [if_pos hzero]
      rfl
    · rw [if_neg hzero]
      rfl

/-- **A float is a number exactly if it is finite**, and `null` otherwise. -/
theorem ofFloat_eq (x : Float) :
    ofFloat x = if x.isFinite then .number (.float x) else .null := by
  rw [← Number.isFinite_float, Number.isFinite, ofFloat]
  generalize Decimal.ofFloat x = parts
  obtain ⟨s, size⟩ := parts
  cases size <;> rfl

/-- The parts of a finite double. -/
theorem bounds_of_unpack {bits m : Nat} {e : Int}
    (h : (Format.double.unpack bits).2 = .finite m e) : m < 2 ^ 53 ∧ e ≤ 971 := by
  have hfraction : bits % 2 ^ 52 < 2 ^ 52 := Nat.mod_lt _ (by decide)
  have hfield : bits / 2 ^ 52 % 2 ^ 11 < 2 ^ 11 := Nat.mod_lt _ (by decide)
  have hleast : Format.double.minExponent = -1074 := rfl
  have htop : Format.double.topField = 2047 := rfl
  simp only [Format.unpack, hleast, htop] at h
  have hprecision : Format.double.precision - 1 = 52 := rfl
  have hbits : Format.double.exponentBits = 11 := rfl
  rw [hprecision, hbits] at h
  generalize bits % 2 ^ 52 = fraction at *
  generalize bits / 2 ^ 52 % 2 ^ 11 = field at *
  split at h
  · split at h <;> contradiction
  split at h
  · obtain ⟨rfl, rfl⟩ := Magnitude.finite.inj h
    exact ⟨by omega, by decide⟩
  · obtain ⟨rfl, rfl⟩ := Magnitude.finite.inj h
    exact ⟨by omega, by omega⟩

theorem toList_write (negative : Bool) (m : Nat) (e : Int) :
    (document.write .double (negative, .finite m e)).toList =
      Literal.sign negative ++ document.writeDigits (Format.double.shortest .toEven m e) := by
  rw [Style.write, String.toList_append, String.toList_ofList]
  cases negative <;> rfl

/-- **A finite float** is printed as a well-formed literal that has a value. -/
theorem Number.exists_literal_float {x : Float} (h : (Number.float x).isFinite = true) :
    ∃ l : Literal, l.WellFormed ∧ (Number.float x).print = l.print ∧ l.size?.isSome = true := by
  obtain ⟨negative, m, e, hx⟩ : ∃ negative m e, Decimal.ofFloat x = (negative, .finite m e) := by
    rw [isFinite] at h
    split at h
    · next m e hsize => exact ⟨(Decimal.ofFloat x).1, m, e, Prod.ext rfl hsize⟩
    · contradiction
  have hbounds : m < 2 ^ 53 ∧ e ≤ 971 := bounds_of_unpack (congrArg Prod.snd hx)
  have hread := Literal.readable_shortest hbounds.1 hbounds.2
  refine ⟨.ofDigits negative _, Literal.wellFormed_ofDigits hread.zero, ?_,
    Literal.isSome_size?_ofDigits hread⟩
  rw [Literal.print_ofDigits, print, Style.writeFloat, hx, toList_write]

/-- **A number is read as the literal that it is printed as**, before whatever does not go on with
a number. -/
theorem Number.exists_literal {n : Number} (h : n.isFinite = true) :
    ∃ l : Literal, l.WellFormed ∧ n.print = l.print ∧ Literal.ofNumber n = l := by
  suffices ∃ l : Literal, l.WellFormed ∧ n.print = l.print by
    obtain ⟨l, hl, hprint⟩ := this
    exact ⟨l, hl, hprint, Literal.ofNumber_eq_of_print hl hprint⟩
  cases n with
  | natural n => exact ⟨_, Literal.wellFormed_ofWhole false n, (Literal.print_ofWhole false n).symm⟩
  | negative n => exact ⟨_, Literal.wellFormed_ofWhole true n, (Literal.print_ofWhole true n).symm⟩
  | float x =>
      obtain ⟨l, hl, hprint, -⟩ := Number.exists_literal_float h
      exact ⟨l, hl, hprint⟩

end InstallAssistant.Json
