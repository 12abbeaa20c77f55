import InstallAssistant.Decimal.Reading
import InstallAssistant.Text.Lines

/-!
# InstallAssistant.Config.Address

Socket addresses: an IPv4 address, or an IPv6 address in brackets, and a port.
An address is printed in its canonical form, in which the longest run of zero
groups of an IPv6 address is left out.

Each reader takes something from the front of a text and gives back the rest.
-/

namespace InstallAssistant

/-- An address to listen on. -/
inductive Address
  | v4 (octets : List Nat) (port : Nat)
  | v6 (groups : List Nat) (zone port : Nat)
deriving DecidableEq, Repr

namespace Address

/-! ## reading -/

/-- A number from the front of a text: at most `most` digits in a base, below a bound; more digits
than that are no number. -/
def number? (base most bound : Nat) (s : List Char) : Option (Nat × List Char) :=
  let digits := s.takeWhile fun c => (Decimal.digitIn? base c).isSome
  if most < digits.length then none
  else ((Decimal.naturalIn? base digits).filter (· < bound)).map fun n =>
    (n, s.drop digits.length)

/-- A number of an IPv4 address; it has no zeros in front. -/
def octet? (s : List Char) : Option (Nat × List Char) :=
  match s with
  | '0' :: c :: _ => if c.isDigit then none else number? 10 3 256 s
  | _ => number? 10 3 256 s

/-- Whatever follows a character. -/
def after? (c : Char) (s : List Char) : Option (List Char) := Text.after? [c] s

def octets? (s : List Char) : Option (List Nat × List Char) := do
  let (a, s) ← octet? s
  let (b, s) ← octet? (← after? '.' s)
  let (c, s) ← octet? (← after? '.' s)
  let (d, s) ← octet? (← after? '.' s)
  return ([a, b, c, d], s)

/-- The number of digits that no port exceeds unless it begins with zeros. -/
def anyLength (s : List Char) : Nat := s.length

def port? (s : List Char) : Option (Nat × List Char) := do
  let s ← after? ':' s
  number? 10 (anyLength s) UInt16.size s

/-- At most `most` groups of an IPv6 address with colons between them; the last two may be written
as an IPv4 address, and the flag tells whether they are.  `colon` tells whether a colon must come
first. -/
def groups (colon : Bool) : (most : Nat) → List Char → List Nat × Bool × List Char
  | 0, s => ([], false, s)
  | most + 1, s =>
    match if colon then after? ':' s else some s with
    | none => ([], false, s)
    | some t =>
      match if most = 0 then none else octets? t with
      | some ([a, b, c, d], rest) => ([a * 256 + b, c * 256 + d], true, rest)
      | _ =>
        match number? 16 4 UInt16.size t with
        | some (g, rest) =>
          let (gs, dotted, rest) := groups true most rest
          (g :: gs, dotted, rest)
        | none => ([], false, s)

/-- The eight groups of an IPv6 address, in which one run of zero groups may be left out. -/
def v6Groups? (s : List Char) : Option (List Nat × List Char) := do
  let (front, dotted, rest) := groups false 8 s
  if front.length = 8 then return (front, rest)
  if dotted then none
  let rest ← Text.after? [':', ':'] rest
  let (back, _, rest) := groups false (7 - front.length) rest
  return (front ++ List.replicate (8 - front.length - back.length) 0 ++ back, rest)

def zone? (s : List Char) : Option (Nat × List Char) :=
  match s with
  | '%' :: rest => number? 10 (anyLength rest) UInt32.size rest
  | s => some (0, s)

def v4? (s : List Char) : Option Address := do
  let (octets, s) ← octets? s
  let (port, s) ← port? s
  if s.isEmpty then return .v4 octets port else none

def v6? (s : List Char) : Option Address := do
  let (gs, s) ← v6Groups? (← after? '[' s)
  let (zone, s) ← zone? s
  let (port, s) ← port? (← after? ']' s)
  if s.isEmpty then return .v6 gs zone port else none

def ofText? (text : String) : Option Address := (v4? text.toList).or (v6? text.toList)

/-! ## printing -/

def dotted (octets : List Nat) : String := Text.join "." (octets.map toString)

/-- A group in hexadecimal digits, without zeros in front. -/
def groupText (g : Nat) : String := String.ofList (Nat.toDigits 16 g)

/-- The length of the run of zeros at the start. -/
def zeroRun (gs : List Nat) : Nat := (gs.takeWhile (· == 0)).length

/-- Where the longest run of zeros begins and how long it is, the first of equally long ones. -/
def longestRun (gs : List Nat) : Nat × Nat :=
  (List.range gs.length).foldl (fun best i =>
    let n := zeroRun (gs.drop i)
    if best.2 < n then (i, n) else best) (0, 0)

def v6Text (gs : List Nat) : String :=
  let colons := fun (gs : List Nat) => Text.join ":" (gs.map groupText)
  match gs with
  | [0, 0, 0, 0, 0, 0xffff, a, b] =>
    "::ffff:" ++ dotted [a / 256, a % 256, b / 256, b % 256]
  | gs =>
    let (start, length) := longestRun gs
    if length < 2 then colons gs
    else colons (gs.take start) ++ "::" ++ colons (gs.drop (start + length))

def text : Address → String
  | .v4 octets port => s!"{dotted octets}:{port}"
  | .v6 gs zone port =>
    let zoneText := if zone = 0 then "" else s!"%{zone}"
    s!"[{v6Text gs}{zoneText}]:{port}"

end Address

end InstallAssistant
