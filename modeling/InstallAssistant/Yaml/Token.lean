import InstallAssistant.Yaml.Scalar

/-!
# InstallAssistant.Yaml.Token

YAML text as tokens.  Indentation is turned into tokens that begin and end block
collections.  A key needs no mark of its own: whether a text is one shows only at
the colon after it, so the place before each text that could be a key is
remembered, and the tokens that begin a key are put there once the colon comes.

* `Layout`: the state between two tokens;
* `Layout.step?`: one more token;
* `Token.ofText?`: all tokens of a text.
-/

namespace InstallAssistant.Yaml

inductive Token
  | version (major minor : Nat)
  | tagHandle (handle start : String)
  | documentStart
  | documentEnd
  | beginSequence
  | beginMapping
  | endBlock
  | beginFlowSequence
  | endFlowSequence
  | beginFlowMapping
  | endFlowMapping
  | entry
  | comma
  | key
  | value
  | anchor (name : String)
  | alias (name : String)
  | tag (handle suffix : String)
  | scalar (style : Style) (text : String)
deriving DecidableEq, Repr

/-- A place where a key may have begun. -/
structure Candidate where
  /-- How many tokens there were before it. -/
  tokens : Nat
  position : Position
  /-- Whether nothing but a key can stand there. -/
  required : Bool
deriving DecidableEq, Repr

/-- The state between two tokens.  `indent` is the column of the innermost block collection, none
outside all of them, and `outer` those around it; `candidates` has one entry for each level of flow
collections, the innermost first, and one for the level outside them. -/
structure Layout where
  cursor : Cursor
  tokens : Array Token := #[]
  indent : Option Nat := none
  outer : List (Option Nat) := []
  keyAllowed : Bool := true
  candidates : List (Option Candidate) := [none]
deriving DecidableEq, Repr

namespace Layout

def inFlow (s : Layout) : Bool := decide (1 < s.candidates.length)

def emit (s : Layout) (t : Token) : Layout := { s with tokens := s.tokens.push t }

def moveTo (s : Layout) (c : Cursor) : Layout := { s with cursor := c }

/-- A token of `n` characters. -/
def mark (s : Layout) (t : Token) (n : Nat) : Layout := (s.emit t).moveTo (s.cursor.skip n)

/-! ## indentation -/

/-- Ends the block collections that are indented by more than `column`; with none for the column,
all of them. -/
def closeTo (column : Option Nat) : (outer : List (Option Nat)) → Layout → Layout
  | outer, s =>
    let deeper := match s.indent, column with
      | some i, some c => decide (c < i)
      | some _, none => true
      | none, _ => false
    if deeper then
      match outer with
      | [] => { s.emit .endBlock with indent := none, outer := [] }
      | i :: outer => closeTo column outer { s.emit .endBlock with indent := i, outer := outer }
    else s

def unroll (s : Layout) (column : Option Nat) : Layout :=
  if s.inFlow then s else closeTo column s.outer s

/-- Begins a block collection at a column that is further in, with its token after the first
`place` tokens. -/
def roll (s : Layout) (column place : Nat) (t : Token) : Layout :=
  if s.inFlow || s.indent.any (column ≤ ·) then s
  else { s with
    indent := some column
    outer := s.indent :: s.outer
    tokens := s.tokens.insertIdxIfInBounds place t }

/-! ## keys -/

/-- The candidates without those that can no longer be keys, because their line has ended or they
are too long.  None of these may be required. -/
def freshen? (p : Position) : List (Option Candidate) → Option (List (Option Candidate))
  | [] => some []
  | none :: rest => (freshen? p rest).map (none :: ·)
  | some c :: rest =>
    if c.position.line < p.line || c.position.index + 1024 < p.index then
      if c.required then none else (freshen? p rest).map (none :: ·)
    else (freshen? p rest).map (some c :: ·)

/-- Gives up the candidate of the present level, which must not be required. -/
def dropCandidate? (s : Layout) : Option Layout :=
  match s.candidates with
  | some c :: rest => if c.required then none else some { s with candidates := none :: rest }
  | _ => some s

/-- Remembers the present place as one where a key may begin. -/
def saveCandidate? (s : Layout) : Option Layout :=
  if s.keyAllowed then do
    let required := !s.inFlow && s.indent == some s.cursor.column
    let s ← s.dropCandidate?
    return { s with
      candidates := some ⟨s.tokens.size, s.cursor.position, required⟩ :: s.candidates.drop 1 }
  else some s

def allowKey (s : Layout) (b : Bool) : Layout := { s with keyAllowed := b }

/-! ## marks -/

/-- `---` or `...`. -/
def documentMark? (s : Layout) (t : Token) : Option Layout := do
  let s ← (s.unroll none).dropCandidate?
  return (s.allowKey false).mark t 3

def flowStart? (s : Layout) (t : Token) : Option Layout := do
  let s ← s.saveCandidate?
  return ({ s with candidates := none :: s.candidates }.allowKey true).mark t 1

def flowEnd? (s : Layout) (t : Token) : Option Layout := do
  let s ← s.dropCandidate?
  let candidates := if s.inFlow then s.candidates.drop 1 else s.candidates
  return ({ s with candidates }.allowKey false).mark t 1

def comma? (s : Layout) : Option Layout := do
  let s ← s.dropCandidate?
  return (s.allowKey true).mark .comma 1

/-- `-` before an item. -/
def entry? (s : Layout) : Option Layout := do
  if !s.inFlow && !s.keyAllowed then none
  let s ← (s.roll s.cursor.column s.tokens.size .beginSequence).dropCandidate?
  return (s.allowKey true).mark .entry 1

/-- `?` before a key. -/
def key? (s : Layout) : Option Layout := do
  if !s.inFlow && !s.keyAllowed then none
  let s ← (s.roll s.cursor.column s.tokens.size .beginMapping).dropCandidate?
  return (s.allowKey !s.inFlow).mark .key 1

/-- `:` after a key. -/
def value? (s : Layout) : Option Layout :=
  match s.candidates with
  | some c :: rest =>
    let s := { s with
      tokens := s.tokens.insertIdxIfInBounds c.tokens .key, candidates := none :: rest }
    let s := s.roll c.position.column c.tokens .beginMapping
    some ((s.allowKey false).mark .value 1)
  | _ =>
    if !s.inFlow && !s.keyAllowed then none
    else
      let s := s.roll s.cursor.column s.tokens.size .beginMapping
      some ((s.allowKey !s.inFlow).mark .value 1)

/-! ## names and tags -/

/-- What may follow the name of an anchor. -/
def endsName : List Char → Bool
  | [] => true
  | c :: _ => isBlank c || isBreak c || c == '?' || c == ':' || c == ',' || c == ']' ||
      c == '\x7d' || c == '%' || c == '@' || c == '\x60'

def name? (s : Layout) (token : String → Token) : Option Layout := do
  let s ← s.saveCandidate?
  let (name, c) := (s.cursor.skip 1).takeWhile isNameChar
  if name.isEmpty || !endsName c.rest then none
  return ((s.allowKey false).emit (token (String.ofList name))).moveTo c

def isTagChar (c : Char) : Bool :=
  isNameChar c || c == ';' || c == '/' || c == '?' || c == ':' || c == '@' || c == '&' ||
    c == '=' || c == '+' || c == '$' || c == '.' || c == '%' || c == '!' || c == '~' ||
    c == '*' || c == '\x27' || c == '(' || c == ')'

/-- The characters of a tag, in which `%` and two hexadecimal digits stand for a byte of one;
`remaining` bytes of the character in progress are still to come, and `value` is that of the bytes
before. -/
def unescapeFrom? (remaining value : Nat) : List Char → Option (List Char)
  | [] => if remaining = 0 then some [] else none
  | '%' :: a :: b :: rest =>
    match Decimal.naturalIn? 16 [a, b] with
    | none => none
    | some byte =>
      if remaining = 0 then
        if byte < 0x80 then (unescapeFrom? 0 0 rest).map (Char.ofNat byte :: ·)
        else if byte < 0xC0 then none
        else if byte < 0xE0 then unescapeFrom? 1 (byte - 0xC0) rest
        else if byte < 0xF0 then unescapeFrom? 2 (byte - 0xE0) rest
        else if byte < 0xF8 then unescapeFrom? 3 (byte - 0xF0) rest
        else none
      else if 0x80 ≤ byte ∧ byte < 0xC0 then
        let value := value * 64 + (byte - 0x80)
        if remaining = 1 then (unescapeFrom? 0 0 rest).map (Char.ofNat value :: ·)
        else unescapeFrom? (remaining - 1) value rest
      else none
  | c :: rest =>
    if remaining = 0 ∧ c ≠ '%' then (unescapeFrom? 0 0 rest).map (c :: ·) else none

/-- A run of the characters of a tag, and the cursor after it. -/
def tagText? (c : Cursor) (p : Char → Bool) : Option (String × Cursor) :=
  let (run, c) := c.takeWhile p
  (unescapeFrom? 0 0 run).map fun cs => (String.ofList cs, c)

/-- Whether a character may stand in a tag that has a mark at its end. -/
def isLongTagChar (c : Char) : Bool := isTagChar c || c == ',' || c == '[' || c == ']'

/-- A tag after its first `!`: its handle, its suffix, and the cursor after it. -/
def tagParts? (c : Cursor) : Option (String × String × Cursor) :=
  match c.rest with
  | '<' :: _ => do
    let (name, c) ← tagText? (c.skip 1) isLongTagChar
    if name.isEmpty || c.rest.head? != some '>' then none else some ("", name, c.skip 1)
  | _ => do
    let (word, after) := c.takeWhile isNameChar
    if after.rest.head? == some '!' then
      let (suffix, c) ← tagText? (after.skip 1) isTagChar
      if suffix.isEmpty then none else some ("!" ++ String.ofList word ++ "!", suffix, c)
    else
      let (suffix, c) ← tagText? c isTagChar
      if suffix.isEmpty then some ("", "!", c) else some ("!", suffix, c)

def tag? (s : Layout) : Option Layout := do
  let s ← s.saveCandidate?
  let (handle, suffix, c) ← tagParts? (s.cursor.skip 1)
  if !startsBlank c.rest && !(s.inFlow && c.rest.head? == some ',') then none
  return ((s.allowKey false).emit (.tag handle suffix)).moveTo c

/-! ## directives -/

def versionPart? (c : Cursor) : Option (Nat × Cursor) :=
  let (digits, c) := c.takeWhile Char.isDigit
  if digits.isEmpty || decide (9 < digits.length) then none
  else some (Decimal.digitsValue digits, c)

def version? (c : Cursor) : Option (Token × Cursor) := do
  let (major, c) ← versionPart? (c.takeWhile isBlank).2
  if c.rest.head? != some '.' then none
  let (minor, c) ← versionPart? (c.skip 1)
  return (.version major minor, c)

def tagHandle? (c : Cursor) : Option (Token × Cursor) := do
  let c := (c.takeWhile isBlank).2
  if c.rest.head? != some '!' then none
  let (word, c) := (c.skip 1).takeWhile isNameChar
  let (handle, c) ←
    if c.rest.head? == some '!' then some ("!" ++ String.ofList word ++ "!", c.skip 1)
    else if word.isEmpty then some ("!", c) else none
  let (blanks, c) := c.takeWhile isBlank
  let (start, c) ← tagText? c isLongTagChar
  if blanks.isEmpty || start.isEmpty || !startsBlank c.rest then none
  return (.tagHandle handle start, c)

def directive? (s : Layout) : Option Layout := do
  let s ← (s.unroll none).dropCandidate?
  let (name, c) := (s.cursor.skip 1).takeWhile isNameChar
  if !startsBlank c.rest then none
  let (token, c) ←
    if name = "YAML".toList then version? c
    else if name = "TAG".toList then tagHandle? c else none
  let c ← c.endOfLine?
  return ((s.allowKey false).emit token).moveTo c

/-! ## texts -/

def plain? (s : Layout) : Option Layout := do
  let s ← s.saveCandidate?
  let indent := s.indent.elim 0 (· + 1)
  let (text, c, broken) ← Scalar.plain? s.inFlow indent {} s.cursor.position s.cursor.rest
  return ((s.allowKey broken).emit (.scalar .plain (String.ofList text))).moveTo c

def quoted? (s : Layout)
    (read : Draft → Position → List Char → Option (List Char × Cursor)) : Option Layout := do
  let s ← s.saveCandidate?
  let start := s.cursor.skip 1
  let (text, c) ← read {} start.position start.rest
  return ((s.allowKey false).emit (.scalar .quoted (String.ofList text))).moveTo c

def block? (s : Layout) (style : Style) : Option Layout := do
  let s ← s.dropCandidate?
  let (text, c) ← Scalar.block? style s.indent (s.cursor.skip 1)
  return ((s.allowKey true).emit (.scalar style (String.ofList text))).moveTo c

/-- Whether a plain text may begin with a character; `rest` follows it. -/
def beginsPlain (inFlow : Bool) (c : Char) (rest : List Char) : Bool :=
  if c == '-' then !startsBlank rest
  else if c == '?' || c == ':' then !inFlow && !startsBlank rest
  else !("#,[]\x7b\x7d&*!|>\x27\x22%@\x60".toList.contains c)

/-! ## one token -/

/-- The token at the cursor, which stands at its first character. -/
def token? (s : Layout) : Option Layout :=
  match s.cursor.rest with
  | [] => none
  | c :: rest =>
    if s.cursor.column = 0 ∧ c = '%' then s.directive?
    else if s.cursor.atDocumentMark then
      s.documentMark? (if c = '-' then .documentStart else .documentEnd)
    else if c = '[' then s.flowStart? .beginFlowSequence
    else if c = '\x7b' then s.flowStart? .beginFlowMapping
    else if c = ']' then s.flowEnd? .endFlowSequence
    else if c = '\x7d' then s.flowEnd? .endFlowMapping
    else if c = ',' then s.comma?
    else if c = '-' ∧ startsBlank rest then s.entry?
    else if c = '?' ∧ (s.inFlow ∨ startsBlank rest) then s.key?
    else if c = ':' ∧ (s.inFlow ∨ startsBlank rest) then s.value?
    else if c = '*' then s.name? .alias
    else if c = '&' then s.name? .anchor
    else if c = '!' then s.tag?
    else if c = '|' ∧ ¬ s.inFlow then s.block? .literal
    else if c = '>' ∧ ¬ s.inFlow then s.block? .folded
    else if c = '\x27' then s.quoted? Scalar.single?
    else if c = '\x22' then s.quoted? (Scalar.double? (0, 0))
    else if beginsPlain s.inFlow c rest then s.plain?
    else none

/-- Over the gap before the next token, with all that its place decides. -/
def approach? (s : Layout) : Option Layout := do
  let (cursor, keyAllowed) := s.cursor.gap s.inFlow s.keyAllowed
  let candidates ← freshen? cursor.position s.candidates
  return { s with cursor, keyAllowed, candidates }.unroll (some cursor.column)

/-- All tokens that are left; each takes at least one character. -/
def finish? : (fuel : Nat) → Layout → Option (List Token)
  | 0, _ => none
  | fuel + 1, s => do
    let s ← s.approach?
    if s.cursor.rest.isEmpty then
      let s ← (s.unroll none).dropCandidate?
      return s.tokens.toList
    else finish? fuel (← s.token?)

end Layout

/-- The tokens of a text; none when a character or a token is out of place. -/
def Token.ofText? (text : String) : Option (List Token) :=
  if text.toList.all isAllowed then
    let chars := unifyBreaks text.toList
    Layout.finish? (chars.length + 1) { cursor := ⟨chars, {}⟩ }
  else none

end InstallAssistant.Yaml
