/-!
# InstallAssistant.Decimal.Binary

Floating-point words as exact numbers.  A word in one of the two interchange
formats is a sign and a magnitude; a finite magnitude is `significand ·
2 ^ exponent` in natural and integer arithmetic, so everything that prints or
reads floats can be said without rounding.

* `Format.unpack`: from a word to a number;
* `Format.ofRatio`: the word nearest to a quotient, ties to even.
-/

-- Powers of numbers are those of the core library, whatever algebra is in scope.
attribute [instance (2000)] instPowNat

namespace InstallAssistant.Decimal

/-- A binary interchange format: how many bits a significand has, its leading one included, and
how many bits hold the exponent. -/
structure Format where
  precision : Nat
  exponentBits : Nat
deriving DecidableEq, Repr

def Format.double : Format := ⟨53, 11⟩

def Format.single : Format := ⟨24, 8⟩

/-- The size of a number, without its sign. -/
inductive Magnitude
  | finite (significand : Nat) (exponent : Int)
  | infinite
  | notANumber
deriving DecidableEq, Repr

namespace Format

/-- The exponent of the least positive number. -/
def minExponent (f : Format) : Int := 3 - 2 ^ (f.exponentBits - 1) - f.precision

/-- The exponent field of infinities and of what is not a number. -/
def topField (f : Format) : Nat := 2 ^ f.exponentBits - 1

def infinityBits (f : Format) : Nat := f.topField * 2 ^ (f.precision - 1)

def signBit (f : Format) : Nat := 2 ^ (f.precision - 1 + f.exponentBits)

/-- The sign (`true` below zero) and the magnitude that a word stands for. -/
def unpack (f : Format) (bits : Nat) : Bool × Magnitude :=
  let fraction := bits % 2 ^ (f.precision - 1)
  let field := bits / 2 ^ (f.precision - 1) % 2 ^ f.exponentBits
  let size :=
    if field = f.topField then if fraction = 0 then .infinite else .notANumber
    else if field = 0 then .finite fraction f.minExponent
    else .finite (2 ^ (f.precision - 1) + fraction) (f.minExponent + (field - 1 : Nat))
  (decide (f.signBit ≤ bits), size)

end Format

/-! ## rounding a quotient -/

/-- The natural number nearest to `num / den`, a tie to the even neighbour. -/
def roundQuotient (num den : Nat) : Nat :=
  let q := num / den
  let r := num % den
  if 2 * r < den ∨ (2 * r = den ∧ q % 2 = 0) then q else q + 1

/-- The number of binary digits. -/
def bitLength (n : Nat) : Nat := if n = 0 then 0 else n.log2 + 1

namespace Format

/-- The word, without its sign, nearest to `num / den` at a given exponent. -/
def ofRatioAt (f : Format) (num den : Nat) (exponent : Int) : Nat :=
  let q := roundQuotient (num * 2 ^ (-exponent).toNat) (den * 2 ^ exponent.toNat)
  min f.infinityBits ((exponent - f.minExponent).toNat * 2 ^ (f.precision - 1) + q)

/-- The word, without its sign, nearest to `num / den`.  The exponent is the one at which the
quotient has `precision` binary digits before the point, or the least one; the step to the next
exponent needs no case of its own, because a significand that rounds up to one digit more carries
into the exponent field. -/
def ofRatio (f : Format) (num den : Nat) : Nat :=
  if num = 0 then 0
  else
    let guess : Int := (bitLength num : Int) - bitLength den - f.precision
    let enough := num * 2 ^ (-guess).toNat < den * 2 ^ guess.toNat * 2 ^ f.precision
    let exponent := if enough ∧ num * 2 ^ (-(guess - 1)).toNat <
        den * 2 ^ (guess - 1).toNat * 2 ^ f.precision then guess - 1
      else if enough then guess else guess + 1
    f.ofRatioAt num den (max exponent f.minExponent)

end Format

/-! ## the two sizes of float -/

def ofFloat (x : Float) : Bool × Magnitude := Format.double.unpack x.toBits.toNat

def ofFloat32 (x : Float32) : Bool × Magnitude := Format.single.unpack x.toBits.toNat

/-- The float with a given sign and word. -/
def toFloat (negative : Bool) (bits : Nat) : Float :=
  Float.ofBits (UInt64.ofNat (bits + if negative then Format.double.signBit else 0))

end InstallAssistant.Decimal
