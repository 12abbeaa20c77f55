/-!
# InstallAssistant.Text.Utf8

Texts as bytes.  A character takes one to four bytes.  Reading bytes back walks
through them once; a byte that cannot continue the sequence in progress ends
that sequence as one ill-formed symbol, so each maximal ill-formed beginning
counts once.

* `Utf8.decode?` reads well-formed bytes only;
* `Utf8.decodeLossy` puts a replacement character for each ill-formed symbol.
-/

namespace InstallAssistant.Text.Utf8

/-! ## writing -/

def encodeChar (c : Char) : List UInt8 :=
  let v := c.toNat
  if v < 0x80 then [UInt8.ofNat v]
  else if v < 0x800 then [UInt8.ofNat (0xC0 + v / 64), UInt8.ofNat (0x80 + v % 64)]
  else if v < 0x10000 then
    [UInt8.ofNat (0xE0 + v / 4096), UInt8.ofNat (0x80 + v / 64 % 64), UInt8.ofNat (0x80 + v % 64)]
  else
    [UInt8.ofNat (0xF0 + v / 262144), UInt8.ofNat (0x80 + v / 4096 % 64),
      UInt8.ofNat (0x80 + v / 64 % 64), UInt8.ofNat (0x80 + v % 64)]

def encodeChars (s : List Char) : List UInt8 := s.flatMap encodeChar

def encode (s : String) : List UInt8 := encodeChars s.toList

/-! ## reading -/

/-- How far reading has got within a character: between two of them, or `remaining` bytes before
the end of one, of which the next must lie in `low`–`high`. -/
inductive Progress
  | between
  | within (remaining value low high : Nat)
deriving DecidableEq, Repr

/-- The first byte of a character, and what it makes of the bytes after it.  A byte that starts no
character is an ill-formed symbol of its own. -/
def lead (b : UInt8) : List (Option Char) × Progress :=
  let v := b.toNat
  if v < 0x80 then ([some (Char.ofNat v)], .between)
  else if 0xC2 ≤ v ∧ v ≤ 0xDF then ([], .within 1 (v - 0xC0) 0x80 0xBF)
  else if v = 0xE0 then ([], .within 2 0 0xA0 0xBF)
  else if v = 0xED then ([], .within 2 0xD 0x80 0x9F)
  else if 0xE1 ≤ v ∧ v ≤ 0xEF then ([], .within 2 (v - 0xE0) 0x80 0xBF)
  else if v = 0xF0 then ([], .within 3 0 0x90 0xBF)
  else if 0xF1 ≤ v ∧ v ≤ 0xF3 then ([], .within 3 (v - 0xF0) 0x80 0xBF)
  else if v = 0xF4 then ([], .within 3 4 0x80 0x8F)
  else ([none], .between)

/-- One more byte: the symbols it completes and the progress after it. -/
def step : Progress → UInt8 → List (Option Char) × Progress
  | .between, b => lead b
  | .within remaining value low high, b =>
    if low ≤ b.toNat ∧ b.toNat ≤ high then
      let value := value * 64 + (b.toNat - 0x80)
      if remaining ≤ 1 then ([some (Char.ofNat value)], .between)
      else ([], .within (remaining - 1) value 0x80 0xBF)
    else
      let (symbols, progress) := lead b
      (none :: symbols, progress)

def symbolsFrom : Progress → List UInt8 → List (Option Char)
  | .between, [] => []
  | .within .., [] => [none]
  | progress, b :: bytes =>
    let (symbols, progress) := step progress b
    symbols ++ symbolsFrom progress bytes

/-- Bytes as characters, with `none` for each ill-formed symbol. -/
def symbols (bytes : List UInt8) : List (Option Char) := symbolsFrom .between bytes

/-- The text that the bytes spell, if all of them are well formed. -/
def decode? (bytes : List UInt8) : Option (List Char) := (symbols bytes).mapM id

/-- The text that the bytes spell, with U+FFFD for each ill-formed symbol. -/
def decodeLossy (bytes : List UInt8) : List Char :=
  (symbols bytes).map fun symbol => symbol.getD '\ufffd'

end InstallAssistant.Text.Utf8
