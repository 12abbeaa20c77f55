/-!
# InstallAssistant.Text.Blank

Blank characters and trimming.  A character is blank when it carries Unicode's
`White_Space` property; trimming removes the blank characters at both ends of a
text and leaves everything between them alone.
-/

namespace InstallAssistant.Text

/-- The twenty-five characters with the `White_Space` property. -/
def isBlank (c : Char) : Bool :=
  let n := c.toNat
  (0x09 ≤ n && n ≤ 0x0D) || n == 0x20 || n == 0x85 || n == 0xA0 || n == 0x1680 ||
    (0x2000 ≤ n && n ≤ 0x200A) || n == 0x2028 || n == 0x2029 || n == 0x202F || n == 0x205F ||
    n == 0x3000

/-- The white space of ASCII that separates words: space, tab, line feed, form feed and
carriage return (a vertical tab does not count). -/
def isAsciiSpace (c : Char) : Bool :=
  c == ' ' || c == '\t' || c == '\n' || c == '\x0c' || c == '\r'

/-! ## trimming -/

def trimStart (s : List Char) : List Char := s.dropWhile isBlank

def trimEnd (s : List Char) : List Char := (s.reverse.dropWhile isBlank).reverse

def trimChars (s : List Char) : List Char := trimEnd (trimStart s)

/-- A text without its leading and trailing blank characters. -/
def trim (s : String) : String := String.ofList (trimChars s.toList)

/-- The trimmed text, or nothing when only blank characters were there. -/
def nonBlank? (s : String) : Option String :=
  let t := trim s
  if t.isEmpty then none else some t

/-- Whether every character of a text is blank. -/
def isBlankText (s : List Char) : Bool := s.all isBlank

end InstallAssistant.Text
