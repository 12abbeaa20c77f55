import InstallAssistant.Text.Lines

/-!
# InstallAssistant.Duration

Spans of time, and their text: in the largest of seconds, milliseconds and
microseconds that the span reaches, with as many places as it takes.
-/

namespace InstallAssistant

structure Duration where
  microseconds : Nat
deriving DecidableEq, Repr

namespace Duration

def ofSeconds (n : Nat) : Duration := ⟨n * 1000000⟩

/-- The digits of `n` after the point, `places` of them at most and no zeros at the end. -/
def fraction (places n : Nat) : String :=
  let digits := (toString n).toList
  let padded := List.replicate (places - digits.length) '0' ++ digits
  match Text.dropEnd '0' padded with
  | [] => ""
  | kept => "." ++ String.ofList kept

/-- The quotient of `n` and the given power of ten, exactly. -/
def decimal (places n : Nat) : String :=
  toString (n / 10 ^ places) ++ fraction places (n % 10 ^ places)

def text (d : Duration) : String :=
  let n := d.microseconds
  if 1000000 ≤ n then decimal 6 n ++ "s"
  else if 1000 ≤ n then decimal 3 n ++ "ms"
  else if 0 < n then toString n ++ "µs"
  else "0ns"

end Duration

end InstallAssistant
