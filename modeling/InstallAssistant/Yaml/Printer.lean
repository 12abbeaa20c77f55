import InstallAssistant.Yaml.Cursor
import InstallAssistant.Yaml.Resolve
import InstallAssistant.Json.Printer

/-!
# InstallAssistant.Yaml.Printer

Settings as YAML text, in block style.  A text is written plain where that reads
back as the same text, between single quotes where it would be taken for
something else, as a literal block when it has line feeds in it, and between
double quotes when it holds characters that have to be escaped.
-/

namespace InstallAssistant.Yaml

/-- What is written: a text, a word that stands for itself, a list, or a record. -/
inductive Value
  | text (s : String)
  | word (s : String)
  | list (items : List String)
  | record (fields : List (String × Value))

namespace Printer

/-! ## what a text is like -/

/-- Whether a character may be written as it is. -/
def isPrintable (c : Char) : Bool :=
  let n := c.toNat
  n == 0x0A || (0x20 ≤ n && n ≤ 0x7E) || (0xA0 ≤ n && n ≤ 0xFFFD && n != 0xFEFF)

/-- The characters that mean something else at the start of a plain text. -/
def isMark (c : Char) : Bool := "#,[]\x7b\x7d&*!|>\x27\x22%@\x60".toList.contains c

/-- Whether two characters next to each other meet a condition. -/
def anyAdjacent (p : Char → Char → Bool) : List Char → Bool
  | a :: b :: rest => p a b || anyAdjacent p (b :: rest)
  | _ => false

/-- Whether a text has something in it that a plain text outside flow collections must not have:
marks at its start, a colon before a blank, or a comment sign after one. -/
def hasMarks (s : List Char) : Bool :=
  (match s with
    | [] => false
    | c :: rest => isMark c || ((c == '?' || c == '-') && startsBlank rest)) ||
  "---".toList.isPrefixOf s || "...".toList.isPrefixOf s ||
  s.getLast? == some ':' ||
  anyAdjacent (fun a b => (a == ':' && startsBlank [b]) || (startsBlank [a] && b == '#')) s

/-- Whether a blank stands before a line break. -/
def hasSpaceBeforeBreak (s : List Char) : Bool := anyAdjacent (fun a b => a == ' ' && isBreak b) s

/-- Whether a blank stands after a line break. -/
def hasSpaceAfterBreak (s : List Char) : Bool := anyAdjacent (fun a b => isBreak a && b == ' ') s

/-- Whether a text can only be written with escapes. -/
def needsEscapes (s : List Char) : Bool := !s.all isPrintable || hasSpaceBeforeBreak s

/-- Whether a plain text reads back as the same characters. -/
def allowsPlain (s : List Char) : Bool :=
  !needsEscapes s && !s.any isBreak && s.head? != some ' ' && s.getLast? != some ' ' && !hasMarks s

def allowsSingle (s : List Char) : Bool := !needsEscapes s && !hasSpaceAfterBreak s

def allowsBlock (s : List Char) : Bool := !needsEscapes s && s.getLast? != some ' '

/-- Whether a plain text would be taken for nothing, a truth value or a number. -/
def isResolved (s : String) : Bool :=
  s.isEmpty || Resolve.isNull s || (Resolve.bool? s).isSome || (Resolve.float? s).isSome ||
    Resolve.isPaddedNumber s.toList ||
    (Resolve.integer? s).any
      (fun n => -(2 ^ (127 : Nat) : Int) ≤ n && n < (2 ^ (128 : Nat) : Int)) ||
    s == "y" || s == "Y" || s == "n" || s == "N"

/-! ## texts -/

def spaces (n : Nat) : List Char := List.replicate n ' '

/-- A number in a fixed count of hexadecimal digits, in capitals. -/
def hex : (digits : Nat) → Nat → List Char
  | 0, _ => []
  | digits + 1, n => hex digits (n / 16) ++ [(Json.hexDigit (n % 16)).toUpper]

/-- A character between double quotes. -/
def escapeChar (c : Char) : List Char :=
  if c = '\x22' ∨ c = '\\' then ['\\', c]
  else if isPrintable c && !isBreak c then [c]
  else if c = '\x00' then ['\\', '0']
  else if c = '\x07' then ['\\', 'a']
  else if c = '\x08' then ['\\', 'b']
  else if c = '\t' then ['\\', 't']
  else if c = '\n' then ['\\', 'n']
  else if c = '\x0b' then ['\\', 'v']
  else if c = '\x0c' then ['\\', 'f']
  else if c = '\r' then ['\\', 'r']
  else if c = '\x1b' then ['\\', 'e']
  else if c = '\u0085' then ['\\', 'N']
  else if c = '\u2028' then ['\\', 'L']
  else if c = '\u2029' then ['\\', 'P']
  else if c.toNat ≤ 0xFF then '\\' :: 'x' :: hex 2 c.toNat
  else if c.toNat ≤ 0xFFFF then '\\' :: 'u' :: hex 4 c.toNat
  else '\\' :: 'U' :: hex 8 c.toNat

def double (s : List Char) : List Char := '\x22' :: (s.flatMap escapeChar ++ ['\x22'])

/-- The inside of a text in single quotes; a line that goes on after a break is indented. -/
def singleFrom (indent : Nat) (afterBreak : Bool) : List Char → List Char
  | [] => if afterBreak then spaces indent else []
  | c :: rest =>
    if isBreak c then c :: singleFrom indent true rest
    else
      (if afterBreak && c != ' ' then spaces indent else []) ++
        (if c = '\x27' then ['\x27', '\x27'] else [c]) ++ singleFrom indent false rest

def single (indent : Nat) (s : List Char) : List Char :=
  '\x27' :: (singleFrom indent false s ++ ['\x27'])

/-- The lines of a block, each that is not empty behind its indentation. -/
def blockFrom (indent : Nat) (atStart : Bool) : List Char → List Char
  | [] => []
  | c :: rest =>
    if isBreak c then c :: blockFrom indent true rest
    else (if atStart then spaces indent else []) ++ c :: blockFrom indent false rest

/-- A literal block whose lines are indented.  The sign is followed by the indentation when the
first line begins with a blank or a break, and by what is to become of the breaks at the end unless
there is just one. -/
def block (indent : Nat) (s : List Char) : List Char :=
  let hint := if s.head?.any fun c => c == ' ' || isBreak c then ['2'] else []
  let chomp := match s.reverse with
    | [] => ['-']
    | [c] => if isBreak c then ['+'] else ['-']
    | c :: d :: _ => if !isBreak c then ['-'] else if isBreak d then ['+'] else []
  '|' :: (hint ++ chomp ++ '\n' :: blockFrom indent true s)

/-- A text as the value of a field of a record that is indented. -/
def text (indent : Nat) (s : String) : List Char :=
  let chars := s.toList
  if chars.contains '\n' then
    if allowsBlock chars then block (indent + 2) chars else double chars
  else if !isResolved s && allowsPlain chars then chars
  else if allowsSingle chars then single (indent + 2) chars
  else double chars

/-! ## records -/

/-- A line break, unless one has just been written. -/
def endLine (s : List Char) : List Char := if s.getLast?.any isBreak then s else s ++ ['\n']

mutual

/-- A value after the name of its field, to the end of its last line. -/
def value (indent : Nat) : Value → List Char
  | .text s => endLine (' ' :: text indent s)
  | .word s => ' ' :: (s.toList ++ ['\n'])
  | .list [] => [' ', '[', ']', '\n']
  | .list items =>
    '\n' :: items.flatMap fun s => spaces indent ++ '-' :: endLine (' ' :: text indent s)
  | .record fields => '\n' :: record (indent + 2) fields

def record (indent : Nat) : List (String × Value) → List Char
  | [] => []
  | (name, v) :: rest =>
    spaces indent ++ name.toList ++ ':' :: (value indent v ++ record indent rest)

end

end Printer

/-- The text of a record. -/
def printRecord (fields : List (String × Value)) : String :=
  String.ofList (Printer.record 0 fields)

end InstallAssistant.Yaml
