import InstallAssistant.Json.Value
import InstallAssistant.Decimal.Style

/-!
# InstallAssistant.Json.Printer

JSON values as text, members in the order in which an object holds them.

* `Json.compact`: no blanks at all;
* `Json.pretty`: one item or member a line, two spaces deeper than its container.

Inside a string only the quotation mark, the backslash and the control
characters below U+0020 are escaped.
-/

namespace InstallAssistant.Json

/-! ## strings -/

def hexDigit (n : Nat) : Char := if n < 10 then Char.ofNat (48 + n) else Char.ofNat (87 + n)

/-- A character as it stands between quotation marks. -/
def escapeChar (c : Char) : List Char :=
  if c = '\x22' then ['\\', '\x22']
  else if c = '\\' then ['\\', '\\']
  else if c = '\x08' then ['\\', 'b']
  else if c = '\t' then ['\\', 't']
  else if c = '\n' then ['\\', 'n']
  else if c = '\x0c' then ['\\', 'f']
  else if c = '\r' then ['\\', 'r']
  else if c.toNat < 0x20 then
    ['\\', 'u', '0', '0', hexDigit (c.toNat / 16), hexDigit (c.toNat % 16)]
  else [c]

def escape (s : List Char) : List Char := s.flatMap escapeChar

/-- A text between quotation marks. -/
def quote (s : String) : List Char := '\x22' :: (escape s.toList ++ ['\x22'])

/-! ## numbers -/

def Number.print : Number → List Char
  | .natural n => Nat.toDigits 10 n
  | .negative n => '-' :: Nat.toDigits 10 n
  | .float x => (Decimal.document.writeFloat x).toList

/-! ## compact text -/

/-- Texts with commas between them. -/
def commas : List (List Char) → List Char
  | [] => []
  | [t] => t
  | t :: ts => t ++ ',' :: commas ts

mutual

def print : Json → List Char
  | .null => "null".toList
  | .bool true => "true".toList
  | .bool false => "false".toList
  | .number n => n.print
  | .string s => quote s
  | .array items => '[' :: (commas (printItems items) ++ [']'])
  | .object members => '\x7b' :: (commas (printMembers members) ++ ['\x7d'])

def printItems : List Json → List (List Char)
  | [] => []
  | v :: vs => print v :: printItems vs

def printMembers : List (String × Json) → List (List Char)
  | [] => []
  | (k, v) :: ms => (quote k ++ ':' :: print v) :: printMembers ms

end

/-- The value as text without blanks. -/
def compact (v : Json) : String := String.ofList v.print

/-! ## indented text -/

/-- A line break and the blanks before what stands at a depth. -/
def newLine (depth : Nat) : List Char := '\n' :: List.replicate (2 * depth) ' '

/-- The items of a container at a depth, each on a line of its own. -/
def block (opening closing : Char) (depth : Nat) (items : List (List Char)) : List Char :=
  match items with
  | [] => [opening, closing]
  | _ =>
    opening :: (commas (items.map fun item => newLine (depth + 1) ++ item) ++
      newLine depth ++ [closing])

mutual

/-- The text of a value whose container is at a depth. -/
def printAt (depth : Nat) : Json → List Char
  | .array items => block '[' ']' depth (printItemsAt (depth + 1) items)
  | .object members => block '\x7b' '\x7d' depth (printMembersAt (depth + 1) members)
  | .null => "null".toList
  | .bool true => "true".toList
  | .bool false => "false".toList
  | .number n => n.print
  | .string s => quote s

def printItemsAt (depth : Nat) : List Json → List (List Char)
  | [] => []
  | v :: vs => printAt depth v :: printItemsAt depth vs

def printMembersAt (depth : Nat) : List (String × Json) → List (List Char)
  | [] => []
  | (k, v) :: ms => (quote k ++ ':' :: ' ' :: printAt depth v) :: printMembersAt depth ms

end

/-- The value as indented text. -/
def pretty (v : Json) : String := String.ofList (v.printAt 0)

end InstallAssistant.Json
