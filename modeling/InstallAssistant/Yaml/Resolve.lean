import InstallAssistant.Decimal.Reading

/-!
# InstallAssistant.Yaml.Resolve

What a plain text means beyond its characters.  A text may name nothing, a truth
value, a whole number or a float; which of these it is taken for depends on what
is asked for.

Whole numbers are decimal, or have one of the beginnings `0x`, `0o` and `0b`; a
decimal number with more than one digit does not begin with zero.
-/

namespace InstallAssistant.Yaml.Resolve

def isNull (s : String) : Bool := s == "null" || s == "Null" || s == "NULL" || s == "~"

def bool? (s : String) : Option Bool :=
  if s == "true" || s == "True" || s == "TRUE" then some true
  else if s == "false" || s == "False" || s == "FALSE" then some false
  else none

/-! ## whole numbers -/

/-- The base that a number is written in, and its digits. -/
def cutBase : List Char → Nat × List Char
  | '0' :: 'x' :: rest => (16, rest)
  | '0' :: 'o' :: rest => (8, rest)
  | '0' :: 'b' :: rest => (2, rest)
  | s => (10, s)

/-- Digits that begin with a zero and more digits after it, with or without a sign. -/
def isPaddedNumber (s : List Char) : Bool :=
  match (Decimal.cutSign s).2 with
  | '0' :: d :: rest => (d :: rest).all Char.isDigit
  | _ => false

/-- A whole number without a sign. -/
def unsigned? (s : List Char) : Option Nat :=
  let (base, digits) := cutBase s
  Decimal.naturalIn? base digits

/-- A whole number that is not written with a minus sign. -/
def natural? (s : String) : Option Nat :=
  let chars := s.toList
  if isPaddedNumber chars then none
  else match chars with
    | '+' :: rest => unsigned? rest
    | rest => unsigned? rest

/-- A whole number, with or without a sign. -/
def integer? (s : String) : Option Int :=
  let chars := s.toList
  match chars with
  | '-' :: rest =>
    if isPaddedNumber chars then none else (unsigned? rest).map fun n => -(n : Int)
  | _ => (natural? s).map Int.ofNat

/-! ## floats -/

/-- A decimal number that a float comes near to, or a name of infinity or of what is not a
number. -/
def float? (s : String) : Option Float :=
  let (sign, rest) := match s.toList with
    | '+' :: rest => ("", rest)
    | '-' :: rest => ("-", rest)
    | rest => ("", rest)
  let name := String.ofList rest
  if name == ".inf" || name == ".Inf" || name == ".INF" then
    some (if sign == "-" then -Decimal.infinity else Decimal.infinity)
  else if s == ".nan" || s == ".NaN" || s == ".NAN" then some Decimal.notANumber
  else if rest.head? == some '+' || rest.head? == some '-' then none
  else (Decimal.Numeral.ofChars? (sign.toList ++ rest)).bind fun n =>
    let x := n.toFloat
    if x.isInf then none else some x

end InstallAssistant.Yaml.Resolve
