import InstallAssistant.Decimal.Shortest

/-!
# InstallAssistant.Decimal.Style

How a float is written.  The digits are always the shortest ones that read back;
a `Style` says where positional notation ends, how an exponent looks, and which of
two equally near digits comes last: the upper one in the first two styles, the
even one in the others.

* `plain`: always positional, and no point after a whole number;
* `scientific`: always one digit before the point, and an exponent;
* `document`: positional from `0.00001` to below `10 ^ 16`, a whole number ends
  in `.0`, and a positive exponent has a sign;
* `settings`: as `document`, but a positive exponent has no sign.
-/

namespace InstallAssistant.Decimal

/-- The choices that turn digits into text. -/
structure Style where
  /-- The exponents of the first digit for which the number is written without an exponent. -/
  positional : Int → Bool
  /-- Whether a whole number in positional notation ends in `.0`. -/
  pointZero : Bool
  /-- Whether a positive exponent is written with a plus sign. -/
  plusSign : Bool
  tie : Tie
  infinity : String
  notANumber : String

def plain : Style := ⟨fun _ => true, false, false, .up, "inf", "NaN"⟩

def scientific : Style := ⟨fun _ => false, false, false, .up, "inf", "NaN"⟩

def document : Style := ⟨fun k => decide (-5 ≤ k ∧ k ≤ 15), true, true, .toEven, "inf", "NaN"⟩

def settings : Style := ⟨fun k => decide (-5 ≤ k ∧ k ≤ 15), true, false, .toEven, ".inf", ".nan"⟩

namespace Style

/-- Digits with the point where it belongs; `k` is the exponent of the first digit. -/
def writePositional (s : Style) (digits : List Char) (k : Int) : List Char :=
  if k < 0 then '0' :: '.' :: (List.replicate ((-k).toNat - 1) '0' ++ digits)
  else
    let whole := k.toNat + 1
    let front := digits.take whole ++ List.replicate (whole - digits.length) '0'
    match digits.drop whole with
    | [] => if s.pointZero then front ++ ['.', '0'] else front
    | fraction => front ++ '.' :: fraction

/-- One digit, the point, the other digits, and the exponent. -/
def writeScientific (s : Style) (digits : List Char) (k : Int) : List Char :=
  let front := match digits with
    | [] => []
    | [d] => [d]
    | d :: ds => d :: '.' :: ds
  let sign := if k < 0 then ['-'] else if s.plusSign then ['+'] else []
  front ++ 'e' :: (sign ++ Nat.toDigits 10 k.natAbs)

def writeDigits (s : Style) (d : Digits) : List Char :=
  let digits := Nat.toDigits 10 d.digits
  let k := d.exponent + (digits.length - 1 : Nat)
  if s.positional k then s.writePositional digits k else s.writeScientific digits k

/-- A number of a format as text. -/
def write (s : Style) (f : Format) : Bool × Magnitude → String
  | (_, .notANumber) => s.notANumber
  | (negative, .infinite) => (if negative then "-" else "") ++ s.infinity
  | (negative, .finite m e) =>
    (if negative then "-" else "") ++ String.ofList (s.writeDigits (f.shortest s.tie m e))

def writeFloat (s : Style) (x : Float) : String := s.write .double (ofFloat x)

def writeFloat32 (s : Style) (x : Float32) : String := s.write .single (ofFloat32 x)

end Style

/-! ## a fixed number of places -/

/-- A number with one digit after the point; the digit is rounded from the exact value, and a tie
goes to the even neighbour. -/
def writeTenths (x : Float) : String :=
  match ofFloat x with
  | (_, .notANumber) => "NaN"
  | (negative, .infinite) => (if negative then "-" else "") ++ "inf"
  | (negative, .finite m e) =>
    let tenths := roundQuotient (10 * m * 2 ^ e.toNat) (2 ^ (-e).toNat)
    (if negative then "-" else "") ++ s!"{tenths / 10}.{tenths % 10}"

end InstallAssistant.Decimal
