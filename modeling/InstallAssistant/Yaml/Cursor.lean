/-!
# InstallAssistant.Yaml.Cursor

The characters of a YAML text, and places in it.  Layout matters in YAML, so a
place knows its line and column besides what is left of the text.

* `unifyBreaks`: every line break as a single character;
* `Cursor.gap`: over blanks, comments and line breaks to the next token.
-/

namespace InstallAssistant.Yaml

/-! ## characters -/

/-- Whether a character may stand in a text at all. -/
def isAllowed (c : Char) : Bool :=
  let n := c.toNat
  n == 0x09 || n == 0x0A || n == 0x0D || (0x20 ≤ n && n ≤ 0x7E) || n == 0x85 ||
    (0xA0 ≤ n && n ≤ 0xFFFD) || 0x10000 ≤ n

/-- The line breaks of a text after `unifyBreaks`. -/
def isBreak (c : Char) : Bool := c == '\n' || c == '\u2028' || c == '\u2029'

def isBlank (c : Char) : Bool := c == ' ' || c == '\t'

/-- Whether a text is at its end, at a blank or at a line break. -/
def startsBlank : List Char → Bool
  | [] => true
  | c :: _ => isBlank c || isBreak c

/-- Whether a character may stand in the name of an anchor. -/
def isNameChar (c : Char) : Bool := c.isAlphanum || c == '_' || c == '-'

/-- A text in which returns, with or without a line feed, and next-line characters are line
feeds. -/
def unifyBreaks : List Char → List Char
  | [] => []
  | '\r' :: '\n' :: rest => '\n' :: unifyBreaks rest
  | '\r' :: rest => '\n' :: unifyBreaks rest
  | '\u0085' :: rest => '\n' :: unifyBreaks rest
  | c :: rest => c :: unifyBreaks rest

/-! ## places -/

structure Position where
  index : Nat := 0
  line : Nat := 0
  column : Nat := 0
deriving DecidableEq, Repr

namespace Position

/-- The place after `n` characters that are no line breaks. -/
def advance (p : Position) (n : Nat) : Position :=
  { p with index := p.index + n, column := p.column + n }

/-- The place after a line break. -/
def newLine (p : Position) : Position := ⟨p.index + 1, p.line + 1, 0⟩

end Position

/-- What is left of a text, and where it stands. -/
structure Cursor where
  rest : List Char
  position : Position
deriving DecidableEq, Repr

namespace Cursor

def column (c : Cursor) : Nat := c.position.column

/-- The cursor `n` characters further on its line. -/
def skip (c : Cursor) (n : Nat) : Cursor := ⟨c.rest.drop n, c.position.advance n⟩

/-- The longest run of characters of a kind, and the cursor after it; the kind must not have line
breaks in it. -/
def takeWhile (c : Cursor) (p : Char → Bool) : List Char × Cursor :=
  let run := c.rest.takeWhile p
  (run, c.skip run.length)

/-- Whether the text begins with three equal characters that mark the bounds of a document. -/
def isDocumentMark (mark : Char) : List Char → Bool
  | a :: b :: c :: rest => a == mark && b == mark && c == mark && startsBlank rest
  | _ => false

/-- Whether a document starts or ends here. -/
def atDocumentMark (c : Cursor) : Bool :=
  c.column == 0 && (isDocumentMark '-' c.rest || isDocumentMark '.' c.rest)

/-- Goes on to the next token; also tells whether a key may begin there.  Outside flow collections
a line break allows a key, and where a key may begin no tab is taken for indentation. -/
def gapFrom (inFlow inComment keyAllowed : Bool) (p : Position) : List Char → Cursor × Bool
  | [] => (⟨[], p⟩, keyAllowed)
  | c :: cs =>
    if isBreak c then gapFrom inFlow false (keyAllowed || !inFlow) p.newLine cs
    else if inComment || c == ' ' || (c == '\t' && (inFlow || !keyAllowed)) ||
        (c == '\ufeff' && p.index == 0) then
      gapFrom inFlow inComment keyAllowed (p.advance 1) cs
    else if c == '#' then gapFrom inFlow true keyAllowed (p.advance 1) cs
    else (⟨c :: cs, p⟩, keyAllowed)

def gap (inFlow keyAllowed : Bool) (c : Cursor) : Cursor × Bool :=
  gapFrom inFlow false keyAllowed c.position c.rest

/-- The rest of a line on which nothing but a comment may follow, up to its break. -/
def endOfLine? (c : Cursor) : Option Cursor :=
  let (_, c) := c.takeWhile isBlank
  let c := if c.rest.head? == some '#' then (c.takeWhile fun x => !isBreak x).2 else c
  match c.rest with
  | [] => some c
  | x :: _ => if isBreak x then some c else none

end Cursor

end InstallAssistant.Yaml
