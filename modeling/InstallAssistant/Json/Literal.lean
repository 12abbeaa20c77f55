import InstallAssistant.Json.Printer
import InstallAssistant.Decimal.Reading

/-!
# InstallAssistant.Json.Literal

Number literals and their values.  A literal without fraction and exponent is a
whole number as long as it fits into 64 bits; every other literal is a float.

The digits of a float literal are gathered into 64 bits: digits of the whole part
as long as they fit, then digits of the fraction as long as they fit; what does
not fit is dropped, and the decimal exponent is adjusted.  The gathered number is
multiplied with, or divided by, the nearest float to a power of ten.  A result
beyond the greatest float is no value.
-/

namespace InstallAssistant.Json

/-- A number as written: the digits before the point, those after it (none when there is no
point), and an exponent with its sign (`true` for a minus sign). -/
structure Literal where
  negative : Bool
  whole : List Char
  fraction : List Char
  exponent : Option (Bool × List Char)
deriving DecidableEq, Repr

namespace Literal

/-! ## the grammar -/

/-- A run of at least one digit, and what follows it. -/
def digits? (s : List Char) : Option (List Char × List Char) :=
  match s.takeWhile Char.isDigit with
  | [] => none
  | ds => some (ds, s.dropWhile Char.isDigit)

/-- The digits before the point: a single zero, or a run that starts with another digit. -/
def whole? : List Char → Option (List Char × List Char)
  | '0' :: rest => some (['0'], rest)
  | s => digits? s

def fraction? : List Char → Option (List Char × List Char)
  | '.' :: rest => digits? rest
  | s => some ([], s)

def exponent? : List Char → Option (Option (Bool × List Char) × List Char)
  | [] => some (none, [])
  | c :: rest =>
    if c = 'e' ∨ c = 'E' then
      let (negative, rest) := Decimal.cutSign rest
      (digits? rest).map fun (ds, rest) => (some (negative, ds), rest)
    else some (none, c :: rest)

/-- The literal at the start of a text, and what follows it. -/
def read? (s : List Char) : Option (Literal × List Char) := do
  let (negative, s) := match s with
    | '-' :: rest => (true, rest)
    | s => (false, s)
  let (whole, s) ← whole? s
  let (fraction, s) ← fraction? s
  let (exponent, s) ← exponent? s
  return (⟨negative, whole, fraction, exponent⟩, s)

/-! ## what is read is used up -/

theorem length_of_digits? {s ds rest : List Char} (h : digits? s = some (ds, rest)) :
    rest.length < s.length := by
  unfold digits? at h
  split at h
  · simp at h
  · next hd =>
    simp only [Option.some.injEq, Prod.mk.injEq] at h
    obtain ⟨rfl, rfl⟩ := h
    have hs := congrArg List.length (List.takeWhile_append_dropWhile (p := Char.isDigit) (l := s))
    have hp : 0 < (s.takeWhile Char.isDigit).length := by
      rw [List.length_pos_iff]; simp_all
    simp only [List.length_append] at hs
    omega

theorem length_of_whole? {s ds rest : List Char} (h : whole? s = some (ds, rest)) :
    rest.length < s.length := by
  unfold whole? at h
  split at h
  · simp_all
  · exact length_of_digits? h

theorem length_of_fraction? {s ds rest : List Char} (h : fraction? s = some (ds, rest)) :
    rest.length ≤ s.length := by
  unfold fraction? at h
  split at h
  · have := length_of_digits? h
    simp only [List.length_cons]; omega
  · simp_all

theorem length_cutSign (s : List Char) : (Decimal.cutSign s).2.length ≤ s.length := by
  unfold Decimal.cutSign
  split <;> simp

theorem length_of_exponent? {s rest : List Char} {e : Option (Bool × List Char)}
    (h : exponent? s = some (e, rest)) : rest.length ≤ s.length := by
  unfold exponent? at h
  split at h
  · simp_all
  · next c r =>
    split at h
    · simp only [Option.map_eq_some_iff, Prod.mk.injEq, Prod.exists] at h
      obtain ⟨ds, q, hd, _, rfl⟩ := h
      have := length_of_digits? hd
      have := length_cutSign r
      simp only [List.length_cons]; omega
    · simp_all

theorem length_of_read? {s rest : List Char} {l : Literal} (h : read? s = some (l, rest)) :
    rest.length < s.length := by
  have key : ∀ {negative : Bool} {t : List Char},
      (do
        let (whole, s) ← whole? t
        let (fraction, s) ← fraction? s
        let (exponent, s) ← exponent? s
        return ((⟨negative, whole, fraction, exponent⟩ : Literal), s)) = some (l, rest) →
      rest.length < t.length := by
    intro negative t h
    simp only [Option.bind_eq_bind, Option.bind_eq_some_iff, Option.pure_def, Option.some.injEq,
      Prod.mk.injEq, Prod.exists] at h
    obtain ⟨_, _, hw, _, _, hf, _, _, he, _, rfl⟩ := h
    have := length_of_whole? hw
    have := length_of_fraction? hf
    have := length_of_exponent? he
    omega
  unfold read? at h
  split at h
  next heq =>
  split at heq
  · cases heq
    have := key h
    simp only [List.length_cons]; omega
  · cases heq
    exact key h

/-! ## the value -/

/-- The first number that 64 bits do not hold. -/
def wordBound : Nat := UInt64.size

/-- Appends digits to a number for as long as it stays below `wordBound`; also how many were
appended. -/
def gather (n : Nat) : List Char → Nat × Nat
  | [] => (n, 0)
  | c :: cs =>
    let next := n * 10 + (c.toNat - '0'.toNat)
    if next < wordBound then
      let (m, taken) := gather next cs
      (m, taken + 1)
    else (n, 0)

/-- The float nearest to `10 ^ k`. -/
def powerOfTen (k : Nat) : Float := Decimal.toFloat false (Decimal.Format.double.ofRatio (10 ^ k) 1)

/-- `x · 10 ^ e` for `e ≤ 308`, in steps of at most `10 ^ 308`. -/
def scaleDown (x : Float) (e : Int) : Float :=
  if -308 ≤ e then
    if e < 0 then x / powerOfTen e.natAbs else x * powerOfTen e.natAbs
  else if x == 0 then x
  else scaleDown (x / powerOfTen 308) (e + 308)
termination_by (-e).toNat

/-- `x · 10 ^ e`, unless that is beyond the greatest float. -/
def scale? (x : Float) (e : Int) : Option Float :=
  if e ≤ 308 then
    let y := scaleDown x e
    if y.isInf then none else some y
  else if x == 0 then some x
  else none

/-- The decimal exponent as a 32-bit quantity; `none` when its digits do not fit. -/
def exponentValue? (negative : Bool) (digits : List Char) : Option Int :=
  let n := Decimal.digitsValue digits
  if n < 2 ^ (31 : Nat) then some (if negative then -(n : Int) else n) else none

/-- The value of the literal as a float, its sign aside. -/
def size? (l : Literal) : Option Float :=
  let (n, taken) := gather 0 l.whole
  let (n, places) := gather n l.fraction
  let shift : Int := (l.whole.length - taken : Nat) - places
  let x := Float.ofNat n
  match l.exponent with
  | none => scale? x shift
  | some (negative, digits) =>
    match exponentValue? negative digits with
    | some e => scale? x (shift + e)
    | none => if n = 0 ∨ negative then some 0 else none

/-- The number that the literal stands for, if a number of the three kinds does. -/
def value? (l : Literal) : Option Number :=
  let n := Decimal.digitsValue l.whole
  let isWhole := l.fraction.isEmpty && l.exponent.isNone
  if isWhole ∧ ¬ l.negative ∧ n < wordBound then some (.natural n)
  else if isWhole ∧ l.negative ∧ 0 < n ∧ n ≤ 2 ^ (63 : Nat) then some (.negative n)
  else l.size?.map fun x => .float (if l.negative then -x else x)

/-- The literal that a number is printed as. -/
def ofNumber (n : Number) : Literal :=
  match read? n.print with
  | some (l, _) => l
  | none => ⟨false, ['0'], [], none⟩

end Literal

end InstallAssistant.Json
