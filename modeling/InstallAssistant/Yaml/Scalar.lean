import InstallAssistant.Yaml.Cursor
import InstallAssistant.Decimal.Reading

/-!
# InstallAssistant.Yaml.Scalar

The five ways to write a text.  Plain and quoted texts may go on over several
lines: a single line break inside them is folded to a space, and of several the
first is dropped.  Block texts keep their line breaks (literal), or fold those
between lines that do not begin with a blank (folded); their indentation is that
of the first line that is not empty, or is given.
-/

namespace InstallAssistant.Yaml

inductive Style
  | plain
  | quoted
  | literal
  | folded
deriving DecidableEq, Repr

/-- What stands between two words of a text, in reverse. -/
inductive Space
  | none
  | blanks (cs : List Char)
  /-- Line breaks, at least one. -/
  | breaks (cs : List Char)
  /-- A line break that was escaped, and the line breaks after it. -/
  | escaped (cs : List Char)
deriving DecidableEq, Repr

namespace Space

def addBlank (c : Char) : Space → Space
  | .none => .blanks [c]
  | .blanks cs => .blanks (c :: cs)
  | s => s

def addBreak (c : Char) : Space → Space
  | .breaks cs => .breaks (c :: cs)
  | .escaped cs => .escaped (c :: cs)
  | _ => .breaks [c]

def afterBreak : Space → Bool
  | .breaks _ | .escaped _ => true
  | _ => false

def isNone : Space → Bool
  | .none => true
  | _ => false

/-- The characters that the space stands for in the text. -/
def fold : Space → List Char
  | .none => []
  | .blanks cs => cs.reverse
  | .escaped cs => cs.reverse
  | .breaks cs =>
    match cs.reverse with
    | ['\n'] => [' ']
    | '\n' :: rest => rest
    | rest => rest

end Space

/-- A text in progress: its characters so far in reverse, and the space after them. -/
structure Draft where
  chars : List Char := []
  space : Space := .none
deriving DecidableEq, Repr

namespace Draft

/-- The characters with the space after them, in reverse. -/
def settled (d : Draft) : List Char := d.space.fold.reverse ++ d.chars

def addChar (d : Draft) (c : Char) : Draft := ⟨c :: d.settled, .none⟩

def addBlank (d : Draft) (c : Char) : Draft := { d with space := d.space.addBlank c }

def addBreak (d : Draft) (c : Char) : Draft := { d with space := d.space.addBreak c }

end Draft

namespace Scalar

/-! ## plain -/

def isFlowMark (c : Char) : Bool := c == ',' || c == '[' || c == ']' || c == '\x7b' || c == '\x7d'

/-- A colon that a flow collection does not take for a part of a plain text. -/
def isStrayColon (inFlow : Bool) (c : Char) (rest : List Char) : Bool :=
  inFlow && c == ':' && rest.head?.any fun x => isFlowMark x || x == '?'

/-- Whether a plain text ends before a character, given the space before it: at the value of a key
or a mark of a flow collection, at a line that is not indented enough, at a comment or at the bounds
of the document. -/
def endsPlain (inFlow : Bool) (indent : Nat) (space : Space) (p : Position) (c : Char)
    (rest : List Char) : Bool :=
  (c == ':' && startsBlank rest) || (inFlow && isFlowMark c) ||
    (space.afterBreak && !inFlow && decide (p.column < indent)) ||
    (!space.isNone && (c == '#' || Cursor.atDocumentMark ⟨c :: rest, p⟩))

/-- A plain text whose further lines are indented by `indent` at least: its characters, the cursor
after it, and whether a line break came last. -/
def plain? (inFlow : Bool) (indent : Nat) (d : Draft) (p : Position) :
    List Char → Option (List Char × Cursor × Bool)
  | [] => some (d.chars.reverse, ⟨[], p⟩, d.space.afterBreak)
  | c :: cs =>
    if isBlank c then
      if d.space.afterBreak && decide (p.column < indent) && c == '\t' then none
      else plain? inFlow indent (d.addBlank c) (p.advance 1) cs
    else if isBreak c then plain? inFlow indent (d.addBreak c) p.newLine cs
    else if endsPlain inFlow indent d.space p c cs then
      some (d.chars.reverse, ⟨c :: cs, p⟩, d.space.afterBreak)
    else if isStrayColon inFlow c cs then none
    else plain? inFlow indent (d.addChar c) (p.advance 1) cs

/-! ## quoted -/

/-- A text in single quotes, after the first one; a quote inside it is written twice. -/
def single? (d : Draft) (p : Position) : List Char → Option (List Char × Cursor)
  | [] => none
  | '\x27' :: '\x27' :: cs => single? (d.addChar '\x27') (p.advance 2) cs
  | '\x27' :: cs => some (d.settled.reverse, ⟨cs, p.advance 1⟩)
  | c :: cs =>
    if isBlank c then single? (d.addBlank c) (p.advance 1) cs
    else if isBreak c then single? (d.addBreak c) p.newLine cs
    else if Cursor.atDocumentMark ⟨c :: cs, p⟩ then none
    else single? (d.addChar c) (p.advance 1) cs

/-- The character that a backslash and one more character stand for. -/
def escape? (c : Char) : Option Char :=
  match c with
  | '0' => some '\x00'
  | 'a' => some '\x07'
  | 'b' => some '\x08'
  | 't' | '\t' => some '\t'
  | 'n' => some '\n'
  | 'v' => some '\x0b'
  | 'f' => some '\x0c'
  | 'r' => some '\r'
  | 'e' => some '\x1b'
  | ' ' => some ' '
  | '\x22' => some '\x22'
  | '/' => some '/'
  | '\\' => some '\\'
  | 'N' => some '\u0085'
  | '_' => some '\u00a0'
  | 'L' => some '\u2028'
  | 'P' => some '\u2029'
  | _ => none

/-- How many hexadecimal digits follow a backslash and one more character. -/
def codeLength? (c : Char) : Option Nat :=
  match c with
  | 'x' => some 2
  | 'u' => some 4
  | 'U' => some 8
  | _ => none

/-- The character with a code, unless the code is a surrogate or too large. -/
def ofCode? (n : Nat) : Option Char := if n.isValidChar then some (Char.ofNat n) else none

/-- A text in double quotes, after the first one.  `code` holds how many digits of an escape in
progress are still to come, and the value of those before. -/
def double? (code : Nat × Nat) (d : Draft) (p : Position) :
    List Char → Option (List Char × Cursor)
  | [] => none
  | c :: cs =>
    match code with
    | (digits + 1, value) =>
      match Decimal.digitIn? 16 c with
      | none => none
      | some v =>
        let value := value * 16 + v
        if digits = 0 then
          match ofCode? value with
          | some x => double? (0, 0) (d.addChar x) (p.advance 1) cs
          | none => none
        else double? (digits, value) d (p.advance 1) cs
    | (0, _) =>
      if isBlank c then double? (0, 0) (d.addBlank c) (p.advance 1) cs
      else if isBreak c then double? (0, 0) (d.addBreak c) p.newLine cs
      else if Cursor.atDocumentMark ⟨c :: cs, p⟩ then none
      else if c = '\x22' then some (d.settled.reverse, ⟨cs, p.advance 1⟩)
      else if c = '\\' then
        match cs with
        | [] => none
        | e :: rest =>
          if isBreak e then double? (0, 0) ⟨d.settled, .escaped []⟩ (p.advance 1).newLine rest
          else match codeLength? e, escape? e with
            | some n, _ => double? (n, 0) d (p.advance 2) rest
            | none, some x => double? (0, 0) (d.addChar x) (p.advance 2) rest
            | none, none => none
      else double? (0, 0) (d.addChar c) (p.advance 1) cs

/-! ## blocks -/

/-- What becomes of the line breaks at the end of a block. -/
inductive Chomp
  | strip
  | clip
  | keep
deriving DecidableEq, Repr

def chomp? (c : Char) : Option Chomp :=
  if c = '-' then some .strip else if c = '+' then some .keep else none

def indentDigit? (c : Char) : Option Nat :=
  if c.isDigit && c != '0' then some (c.toNat - '0'.toNat) else none

/-- The marks after the sign of a block: what happens to the breaks at its end, and how far it is
indented, in either order. -/
def header? : List Char → Option (Chomp × Option Nat × Nat)
  | c :: cs =>
    match chomp? c with
    | some chomp =>
      match cs with
      | d :: _ =>
        if d.isDigit then (indentDigit? d).map fun n => (chomp, some n, 2)
        else some (chomp, none, 1)
      | [] => some (chomp, none, 1)
    | none =>
      if c.isDigit then
        (indentDigit? c).map fun n =>
          match cs.head?.bind chomp? with
          | some chomp => (chomp, some n, 2)
          | none => (.clip, some n, 1)
      else some (.clip, none, 0)
  | [] => some (.clip, none, 0)

/-- Over the indentation of a block and its empty lines to the next line that is not empty: the
line breaks on the way, in reverse, how far the lines were indented, and the cursor there. -/
def emptyLines? (indent : Option Nat) (breaks : List Char) (deepest : Nat) (p : Position) :
    List Char → Option (List Char × Nat × Cursor)
  | [] => some (breaks, max deepest p.column, ⟨[], p⟩)
  | c :: cs =>
    let inMargin := indent.all fun n => decide (p.column < n)
    if c = ' ' && inMargin then emptyLines? indent breaks deepest (p.advance 1) cs
    else if c = '\t' && inMargin then none
    else if isBreak c then emptyLines? indent (c :: breaks) (max deepest p.column) p.newLine cs
    else some (breaks, max deepest p.column, ⟨c :: cs, p⟩)

/-- A block in progress: its characters in reverse, the break of its last line, the breaks of the
empty lines after that in reverse, and whether the last line began with a blank. -/
structure BlockDraft where
  chars : List Char := []
  lineBreak : List Char := []
  empty : List Char
  indented : Bool := false
deriving DecidableEq, Repr

/-- Adds a line, after the breaks before it have been kept or folded. -/
def BlockDraft.addLine (d : BlockDraft) (style : Style) (line : List Char) : BlockDraft :=
  let begins := line.head?.any isBlank
  let kept :=
    if style == .folded && d.lineBreak == ['\n'] && !d.indented && !begins then
      if d.empty.isEmpty then [' '] else []
    else d.lineBreak
  { chars := line.reverse ++ (d.empty ++ (kept ++ d.chars))
    lineBreak := [], empty := [], indented := begins }

/-- The lines of a block from a cursor that stands at a line which is not empty; each line takes
at least one character, so `fuel` characters suffice. -/
def blockLines? (style : Style) (indent : Nat) : (fuel : Nat) → BlockDraft → Cursor →
    Option (BlockDraft × Cursor)
  | 0, d, c => some (d, c)
  | fuel + 1, d, c =>
    if c.column == indent && !c.rest.isEmpty then
      let (line, c) := c.takeWhile fun x => !isBreak x
      let d := d.addLine style line
      match c.rest with
      | [] => some (d, c)
      | x :: rest =>
        match emptyLines? (some indent) [] 0 c.position.newLine rest with
        | none => none
        | some (breaks, _, c) =>
          blockLines? style indent fuel { d with lineBreak := [x], empty := breaks } c
    else some (d, c)

/-- The text of a finished block. -/
def BlockDraft.text (d : BlockDraft) (chomp : Chomp) : List Char :=
  let tail := match chomp with
    | .strip => []
    | .clip => d.lineBreak
    | .keep => d.empty ++ d.lineBreak
  (tail ++ d.chars).reverse

/-- A block after its sign, inside something indented by `outer`, which is none at the top. -/
def block? (style : Style) (outer : Option Nat) (c : Cursor) : Option (List Char × Cursor) := do
  let (chomp, given, length) ← header? c.rest
  let c ← (c.skip length).endOfLine?
  let c : Cursor := match c.rest with
    | [] => c
    | _ :: rest => ⟨rest, c.position.newLine⟩
  let given := given.map fun n => outer.getD 0 + n
  let (breaks, deepest, c) ← emptyLines? given [] 0 c.position c.rest
  let least := max 1 (outer.elim 0 (· + 1))
  let indent := given.getD (max deepest least)
  let (d, c) ← blockLines? style indent c.rest.length { empty := breaks } c
  return (d.text chomp, c)

end Scalar

end InstallAssistant.Yaml
