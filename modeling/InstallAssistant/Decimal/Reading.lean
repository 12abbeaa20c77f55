import InstallAssistant.Decimal.Binary

/-!
# InstallAssistant.Decimal.Reading

Decimal texts as numbers.  A decimal text is an optional sign, digits with at
most one point among or around them, and an optional exponent; its value is the
float nearest to the exact decimal number.

* `Numeral.ofChars?`: the parts of such a text;
* `Numeral.toFloat`: its value;
* `readFloat?`: a decimal text, or a name of infinity or of what is not a number;
* `natural?`: a whole number in a given base, with an upper bound.
-/

namespace InstallAssistant.Decimal

/-- The number `digits · 10 ^ exponent`, or its negative. -/
structure Numeral where
  negative : Bool
  digits : List Char
  exponent : Int
deriving DecidableEq, Repr

/-- The value of a text of decimal digits. -/
def digitsValue (digits : List Char) : Nat := Nat.ofDigitChars 10 digits 0

/-- Whether a sign leads (`true` for a minus sign), and the text after it. -/
def cutSign : List Char → Bool × List Char
  | '-' :: rest => (true, rest)
  | '+' :: rest => (false, rest)
  | s => (false, s)

/-- A whole number with an optional sign and at least one digit. -/
def signed? (s : List Char) : Option Int :=
  let (negative, digits) := cutSign s
  if digits.isEmpty || !digits.all Char.isDigit then none
  else some (if negative then -(digitsValue digits : Int) else digitsValue digits)

namespace Numeral

/-- The exponent that ends a text: `e` or `E`, a sign or none, digits. -/
def exponent? : List Char → Option Int
  | [] => some 0
  | c :: rest => if c = 'e' ∨ c = 'E' then signed? rest else none

/-- A decimal text without its sign. -/
def ofUnsigned? (negative : Bool) (s : List Char) : Option Numeral :=
  let whole := s.takeWhile Char.isDigit
  let (fraction, rest) := match s.dropWhile Char.isDigit with
    | '.' :: rest => (rest.takeWhile Char.isDigit, rest.dropWhile Char.isDigit)
    | rest => ([], rest)
  if whole.isEmpty && fraction.isEmpty then none
  else (exponent? rest).map fun e => ⟨negative, whole ++ fraction, e - fraction.length⟩

def ofChars? (s : List Char) : Option Numeral :=
  let (negative, rest) := cutSign s
  ofUnsigned? negative rest

/-- The float nearest to a numeral.  A numeral whose first digit that counts stands further from
the point than any float reaches is infinite, or zero, without its power of ten being written
out. -/
def toFloat (n : Numeral) : Float :=
  let digits := n.digits.dropWhile (· == '0')
  let top := n.exponent + digits.length
  let bits :=
    if digits.isEmpty ∨ top < -400 then 0
    else if 400 < top then Format.double.infinityBits
    else Format.double.ofRatio
      (digitsValue digits * 10 ^ n.exponent.toNat) (10 ^ (-n.exponent).toNat)
  Decimal.toFloat n.negative bits

end Numeral

/-! ## floats -/

def infinity : Float := Decimal.toFloat false Format.double.infinityBits

def notANumber : Float := Decimal.toFloat false (Format.double.infinityBits + 2 ^ (51 : Nat))

/-- A decimal text, or one of `inf`, `infinity` and `nan` in any case of letters, with an optional
sign. -/
def readFloat? (s : String) : Option Float :=
  let (negative, rest) := cutSign s.toList
  let name := String.ofList (rest.map Char.toLower)
  if name = "inf" ∨ name = "infinity" then some (if negative then -infinity else infinity)
  else if name = "nan" then some notANumber
  else (Numeral.ofChars? s.toList).map Numeral.toFloat

/-! ## whole numbers -/

/-- The value of a digit in a base of at most sixteen. -/
def digitIn? (base : Nat) (c : Char) : Option Nat :=
  let value :=
    if c.isDigit then c.toNat - '0'.toNat
    else if 'a' ≤ c ∧ c ≤ 'f' then c.toNat - 'a'.toNat + 10
    else if 'A' ≤ c ∧ c ≤ 'F' then c.toNat - 'A'.toNat + 10
    else base
  if value < base then some value else none

/-- The value of digits in a base; there must be at least one digit. -/
def naturalIn? (base : Nat) : List Char → Option Nat
  | [] => none
  | digits => digits.foldlM (fun n c => (digitIn? base c).map (n * base + ·)) 0

/-- A whole number below `bound`, written in decimal digits with an optional plus sign. -/
def natural? (bound : Nat) (s : List Char) : Option Nat :=
  let digits := match s with
    | '+' :: rest => rest
    | _ => s
  (naturalIn? 10 digits).filter (· < bound)

end InstallAssistant.Decimal
