import InstallAssistant.Decimal.Binary

/-!
# InstallAssistant.Decimal.Shortest

The fewest decimal digits that read back as a given binary number.  The numbers
that round to `m · 2 ^ e` form an interval around it; its ends belong to it when
`m` is even, and its lower half is only half as wide where the spacing of the
numbers changes.  With one digit, then two, and so on, the two neighbours of the
number on the decimal grid are tried: the first grid with a hit wins, and of two
hits the nearer one.  A `Tie` says which one wins when both are equally near.
-/

namespace InstallAssistant.Decimal

/-- The decimal number `digits · 10 ^ exponent`. -/
structure Digits where
  digits : Nat
  exponent : Int
deriving DecidableEq, Repr

/-- Without the zeros at the end of its digits; zero becomes `0 · 10 ^ 0`. -/
def Digits.strip (d : Digits) : Digits :=
  if d.digits = 0 then ⟨0, 0⟩
  else
    let written := Nat.toDigits 10 d.digits
    let zeros := (written.reverse.takeWhile (· == '0')).length
    ⟨d.digits / 10 ^ zeros, d.exponent + zeros⟩

/-- Which of two decimal neighbours is taken when both are equally near. -/
inductive Tie
  | up
  | toEven
deriving DecidableEq, Repr

/-- The interval of what rounds to a number: the number is `mid / den`, the interval reaches from
`low / den` to `high / den`. -/
structure Neighbourhood where
  low : Nat
  mid : Nat
  high : Nat
  den : Nat
  /-- Whether the two ends belong to the interval. -/
  closed : Bool
deriving DecidableEq, Repr

/-- The neighbourhood of `m · 2 ^ e` in a format. -/
def Format.neighbourhood (f : Format) (m : Nat) (e : Int) : Neighbourhood :=
  let unit := 2 ^ (e - 2).toNat
  let below := if m = 2 ^ (f.precision - 1) ∧ f.minExponent < e then 1 else 2
  { low := (4 * m - below) * unit, mid := 4 * m * unit, high := (4 * m + 2) * unit
    den := 2 ^ (2 - e).toNat, closed := m % 2 = 0 }

namespace Neighbourhood

/-- Whether the decimal number `d · 10 ^ q` lies in the interval. -/
def holds (n : Neighbourhood) (d : Nat) (q : Int) : Bool :=
  let value := d * 10 ^ q.toNat * n.den
  let scale := 10 ^ (-q).toNat
  if n.closed then n.low * scale ≤ value && value ≤ n.high * scale
  else n.low * scale < value && value < n.high * scale

/-- The largest multiple of `10 ^ q` that is not above the number, as a count of `10 ^ q`. -/
def floorAt (n : Neighbourhood) (q : Int) : Nat :=
  n.mid * 10 ^ (-q).toNat / (n.den * 10 ^ q.toNat)

/-- Whether `d + 1` is taken rather than `d`, in counts of `10 ^ q`. -/
def prefersUpper (n : Neighbourhood) (tie : Tie) (d : Nat) (q : Int) : Bool :=
  match compare ((2 * d + 1) * (n.den * 10 ^ q.toNat)) (2 * (n.mid * 10 ^ (-q).toNat)), tie with
  | .lt, _ => true
  | .gt, _ => false
  | .eq, .up => true
  | .eq, .toEven => d % 2 = 1

/-- The hit on the grid of `10 ^ q`, if there is one. -/
def hitAt? (n : Neighbourhood) (tie : Tie) (q : Int) : Option Nat :=
  let d := n.floorAt q
  match n.holds d q, n.holds (d + 1) q with
  | true, true => some (if n.prefersUpper tie d q then d + 1 else d)
  | true, false => some d
  | false, true => some (d + 1)
  | false, false => none

/-- The exponent of the first digit: `10 ^ k ≤ mid / den < 10 ^ (k + 1)`. -/
def leadExponent (n : Neighbourhood) : Int :=
  if n.den ≤ n.mid then ((Nat.toDigits 10 (n.mid / n.den)).length : Int) - 1
  else
    Int.negOfNat (((List.range (bitLength n.den)).find? fun j => n.den ≤ n.mid * 10 ^ j).getD 0)

/-- The first hit with at most `most` digits, each grid ten times finer than the one before. -/
def firstHit (n : Neighbourhood) (tie : Tie) : (most : Nat) → (q : Int) → Option Digits
  | 0, _ => none
  | most + 1, q =>
    match n.hitAt? tie q with
    | some d => some ⟨d, q⟩
    | none => n.firstHit tie most (q - 1)

end Neighbourhood

/-- The shortest decimal that reads back as `m · 2 ^ e`; seventeen digits always suffice. -/
def Format.shortest (f : Format) (tie : Tie) (m : Nat) (e : Int) : Digits :=
  if m = 0 then ⟨0, 0⟩
  else
    let n := f.neighbourhood m e
    ((n.firstHit tie 17 n.leadExponent).getD ⟨n.floorAt 0, 0⟩).strip

end InstallAssistant.Decimal
