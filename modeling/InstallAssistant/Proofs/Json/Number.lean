import InstallAssistant.Json.Literal
import Mathlib.Data.List.Basic

/-!
# InstallAssistant.Proofs.Json.Number

Number literals are read back.  The text of a number goes on as long as digits do, so it
is read as one literal only before something that is no part of a number (`Ends`); there
every well-formed literal is read back (`Literal.read?_print`).  A whole number of 64
bits has the value that it was printed from (`Literal.value?_ofNumber_natural`,
`Literal.value?_ofNumber_negative`).
-/

namespace InstallAssistant.Json

/-! ## digits -/

/-- Whether a character may go on with a number. -/
def continuesNumber (c : Char) : Bool := c.isDigit || c == '.' || c == 'e' || c == 'E'

/-- A text that does not go on with a number. -/
def Ends (rest : List Char) : Prop := ∀ c ∈ rest.head?, continuesNumber c = false

theorem ends_nil : Ends [] := nofun

theorem ends_cons {c : Char} (h : continuesNumber c = false) (rest : List Char) :
    Ends (c :: rest) := by
  rintro d hd
  obtain rfl := Option.some.inj hd
  exact h

theorem isDigit_of_mem_toDigits {n : Nat} {c : Char} (h : c ∈ Nat.toDigits 10 n) :
    c.isDigit = true := Nat.isDigit_of_mem_toDigits (by decide) (by decide) h

/-- A number that is not zero has a first digit that is not zero. -/
theorem head?_toDigits_ne_zero {n : Nat} (h : 0 < n) : (Nat.toDigits 10 n).head? ≠ some '0' := by
  induction n using Nat.strongRecOn with
  | ind n ih =>
      rw [Nat.toDigits_eq_if (by decide)]
      split
      · next hlt =>
        have hdigit : ∀ d < 10, 0 < d → [Nat.digitChar d].head? ≠ some '0' := by decide
        exact hdigit n hlt h
      · have hquotient := ih (n / 10) (by omega) (by omega)
        rwa [List.head?_append_of_ne_nil _ Nat.toDigits_ne_nil]

/-- A text that does not go on with digits. -/
def NoDigit (rest : List Char) : Prop := ∀ c ∈ rest.head?, c.isDigit = false

theorem noDigit_cons {c : Char} (h : c.isDigit = false) (rest : List Char) : NoDigit (c :: rest) := by
  rintro d hd
  obtain rfl := Option.some.inj hd
  exact h

theorem Ends.noDigit {rest : List Char} (h : Ends rest) : NoDigit rest := by
  intro c hc
  have hends := h c hc
  simp only [continuesNumber, Bool.or_eq_false_iff] at hends
  exact hends.1.1.1

namespace Literal

/-! ## reading a literal -/

def printFraction : List Char → List Char
  | [] => []
  | ds => '.' :: ds

def printExponent : Option (Bool × List Char) → List Char
  | none => []
  | some (negative, ds) => 'e' :: (if negative then '-' else '+') :: ds

/-- A literal as text, with a sign in front of every exponent. -/
def print (l : Literal) : List Char :=
  (if l.negative then ['-'] else []) ++
    (l.whole ++ (printFraction l.fraction ++ printExponent l.exponent))

/-- What a literal consists of: digits, with no zero in front of others. -/
structure WellFormed (l : Literal) : Prop where
  whole : l.whole = ['0'] ∨ l.whole ≠ [] ∧ l.whole.head? ≠ some '0'
  digits : ∀ c ∈ l.whole ++ l.fraction, c.isDigit = true
  exponent : ∀ e ∈ l.exponent, e.2 ≠ [] ∧ ∀ c ∈ e.2, c.isDigit = true

theorem digits?_append {ds rest : List Char} (hne : ds ≠ []) (hds : ∀ c ∈ ds, c.isDigit = true)
    (hrest : NoDigit rest) : digits? (ds ++ rest) = some (ds, rest) := by
  have hstop : rest.takeWhile Char.isDigit = [] ∧ rest.dropWhile Char.isDigit = rest := by
    cases rest with
    | nil => exact ⟨rfl, rfl⟩
    | cons c rest =>
        have hc := hrest c rfl
        simp [hc]
  rw [digits?, List.takeWhile_append_of_pos hds, List.dropWhile_append_of_pos hds, hstop.1,
    hstop.2, List.append_nil]
  cases ds with
  | nil => contradiction
  | cons d ds => rfl

theorem whole?_append {ds rest : List Char}
    (hwhole : ds = ['0'] ∨ ds ≠ [] ∧ ds.head? ≠ some '0') (hds : ∀ c ∈ ds, c.isDigit = true)
    (hrest : NoDigit rest) : whole? (ds ++ rest) = some (ds, rest) := by
  obtain rfl | ⟨hne, hhead⟩ := hwhole
  · rfl
  · obtain ⟨d, ds, rfl⟩ := List.exists_cons_of_ne_nil hne
    unfold whole?
    split
    · next heq =>
      rw [List.cons_append] at heq
      rw [(List.cons.inj heq).1] at hhead
      exact absurd rfl hhead
    · exact digits?_append hne hds hrest

theorem fraction?_printFraction {ds rest : List Char} (hds : ∀ c ∈ ds, c.isDigit = true)
    (hrest : NoDigit rest) (hpoint : rest.head? ≠ some '.') :
    fraction? (printFraction ds ++ rest) = some (ds, rest) := by
  cases ds with
  | nil =>
      unfold fraction?
      split
      · next heq => exact absurd (congrArg List.head? heq) hpoint
      · rfl
  | cons d ds => exact digits?_append (List.cons_ne_nil d ds) hds hrest

theorem exponent?_printExponent {e : Option (Bool × List Char)} {rest : List Char}
    (he : ∀ e' ∈ e, e'.2 ≠ [] ∧ ∀ c ∈ e'.2, c.isDigit = true) (hrest : Ends rest) :
    exponent? (printExponent e ++ rest) = some (e, rest) := by
  match e with
  | none =>
      cases rest with
      | nil => rfl
      | cons c rest =>
          have hc := hrest c rfl
          simp only [continuesNumber, Bool.or_eq_false_iff, beq_eq_false_iff_ne] at hc
          rw [printExponent, List.nil_append, exponent?, if_neg (by simp [hc.1.2, hc.2])]
  | some (negative, ds) =>
      obtain ⟨hne, hds⟩ := he _ rfl
      have hdigits := digits?_append hne hds hrest.noDigit
      have hsign : Decimal.cutSign ((if negative then '-' else '+') :: (ds ++ rest)) =
          (negative, ds ++ rest) := by
        cases negative <;> rfl
      rw [printExponent, List.cons_append, List.cons_append, exponent?, if_pos (.inl rfl), hsign]
      simp only [hdigits]
      rfl

/-- What follows the digits before the point. -/
theorem noDigit_exponent (e : Option (Bool × List Char)) {rest : List Char} (hrest : Ends rest) :
    NoDigit (printExponent e ++ rest) ∧ (printExponent e ++ rest).head? ≠ some '.' := by
  match e with
  | none => 
      refine ⟨hrest.noDigit, fun hhead => ?_⟩
      exact absurd (hrest '.' hhead) (by decide)
  | some (negative, ds) => exact ⟨noDigit_cons rfl _, by simp [printExponent]⟩

theorem noDigit_fraction (ds : List Char) {rest : List Char} (hrest : NoDigit rest) :
    NoDigit (printFraction ds ++ rest) := by
  cases ds with
  | nil => exact hrest
  | cons d ds => exact noDigit_cons rfl _

/-- What a literal is read as once its sign is known. -/
theorem read?_unsigned {l : Literal} (hl : l.WellFormed) {rest : List Char} (hrest : Ends rest) :
    (do
      let (whole, s) ← whole? (l.whole ++ (printFraction l.fraction ++
        (printExponent l.exponent ++ rest)))
      let (fraction, s) ← fraction? s
      let (exponent, s) ← exponent? s
      return ((⟨l.negative, whole, fraction, exponent⟩ : Literal), s)) = some (l, rest) := by
  obtain ⟨hwhole, hfraction⟩ := List.forall_mem_append.mp hl.digits
  obtain ⟨hexponent, hpoint⟩ := noDigit_exponent l.exponent hrest
  simp only [whole?_append hl.whole hwhole (noDigit_fraction _ hexponent),
    fraction?_printFraction hfraction hexponent hpoint, exponent?_printExponent hl.exponent hrest,
    Option.bind_eq_bind, Option.bind_some]
  rfl

theorem WellFormed.exists_whole_eq_cons {l : Literal} (hl : l.WellFormed) :
    ∃ d ds, l.whole = d :: ds ∧ d.isDigit = true := by
  obtain hzero | ⟨hne, -⟩ := hl.whole
  · exact ⟨'0', [], hzero, rfl⟩
  · obtain ⟨d, ds, hwhole⟩ := List.exists_cons_of_ne_nil hne
    exact ⟨d, ds, hwhole, hl.digits d (by simp [hwhole])⟩

/-- **A literal is read back** before whatever does not go on with a number. -/
theorem read?_print {l : Literal} (hl : l.WellFormed) {rest : List Char} (hrest : Ends rest) :
    read? (l.print ++ rest) = some (l, rest) := by
  have hunsigned := read?_unsigned hl hrest
  unfold read?
  rw [print, List.append_assoc, List.append_assoc, List.append_assoc]
  cases hnegative : l.negative with
  | true =>
      rw [hnegative] at hunsigned
      exact hunsigned
  | false =>
      rw [hnegative] at hunsigned
      split
      next negative s hsign =>
      obtain ⟨d, ds, hwhole, hd⟩ := hl.exists_whole_eq_cons
      split at hsign
      · next heq =>
        rw [hwhole] at heq
        rw [(List.cons.inj heq).1] at hd
        exact absurd hd (by decide)
      · cases hsign
        exact hunsigned

/-! ## whole numbers -/

/-- The literal of a whole number. -/
def ofWhole (negative : Bool) (n : Nat) : Literal := ⟨negative, Nat.toDigits 10 n, [], none⟩

theorem toDigits_leading (n : Nat) :
    Nat.toDigits 10 n = ['0'] ∨ Nat.toDigits 10 n ≠ [] ∧ (Nat.toDigits 10 n).head? ≠ some '0' := by
  by_cases hn : n = 0
  · exact .inl (by rw [hn, Nat.toDigits_zero])
  · exact .inr ⟨Nat.toDigits_ne_nil, head?_toDigits_ne_zero (Nat.pos_of_ne_zero hn)⟩

theorem wellFormed_ofWhole (negative : Bool) (n : Nat) : (ofWhole negative n).WellFormed where
  whole := toDigits_leading n
  digits c hc := isDigit_of_mem_toDigits (by simpa [ofWhole] using hc)
  exponent := nofun

theorem print_ofWhole (negative : Bool) (n : Nat) :
    (ofWhole negative n).print = (if negative then ['-'] else []) ++ Nat.toDigits 10 n :=
  congrArg ((if negative then ['-'] else []) ++ ·) (List.append_nil _)

/-- A number that is printed as a well-formed literal is read as that literal. -/
theorem ofNumber_eq_of_print {n : Number} {l : Literal} (hl : l.WellFormed)
    (h : n.print = l.print) : ofNumber n = l := by
  have hread := read?_print hl ends_nil
  rw [List.append_nil] at hread
  rw [ofNumber, h, hread]

theorem ofNumber_natural (n : Nat) : ofNumber (.natural n) = ofWhole false n :=
  ofNumber_eq_of_print (wellFormed_ofWhole false n) (print_ofWhole false n).symm

theorem ofNumber_negative (n : Nat) : ofNumber (.negative n) = ofWhole true n :=
  ofNumber_eq_of_print (wellFormed_ofWhole true n) (print_ofWhole true n).symm

theorem digitsValue_ofWhole (negative : Bool) (n : Nat) :
    Decimal.digitsValue (ofWhole negative n).whole = n := Nat.ofDigitChars_ten_toDigits

/-- **A whole number of 64 bits** has the value that it was printed from. -/
theorem value?_ofNumber_natural {n : Nat} (h : n < wordBound) :
    (ofNumber (.natural n)).value? = some (.natural n) := by
  rw [ofNumber_natural, value?, digitsValue_ofWhole]
  simp [ofWhole, h]

/-- The magnitude of the least whole number of 64 bits. -/
def signBound : Nat := 2 ^ (63 : Nat)

theorem value?_ofNumber_negative {n : Nat} (hpos : 0 < n) (h : n ≤ signBound) :
    (ofNumber (.negative n)).value? = some (.negative n) := by
  rw [ofNumber_negative, value?, digitsValue_ofWhole]
  have h' : n ≤ 9223372036854775808 := h
  simp [ofWhole, hpos, h']

end Literal

end InstallAssistant.Json
