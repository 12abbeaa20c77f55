import InstallAssistant.Json.Literal

/-!
# InstallAssistant.Json.Token

JSON text as tokens.  Blanks stand between tokens and nowhere else.  A string is
read for its form alone: an escape may name one half of a surrogate pair, and
only afterwards it shows whether the halves come in pairs.  A string in which
they do not is well formed and has no text.
-/

namespace InstallAssistant.Json

inductive Token
  | beginArray
  | endArray
  | beginObject
  | endObject
  | comma
  | colon
  | null
  | bool (b : Bool)
  | number (l : Literal)
  | string (text? : Option String)
deriving DecidableEq, Repr

namespace Token

/-! ## strings -/

/-- What one character or one escape of a string stands for. -/
inductive Piece
  | char (c : Char)
  | surrogate (n : Nat)
deriving DecidableEq, Repr

/-- The code unit of four hexadecimal digits. -/
def unit? (a b c d : Char) : Option Nat := Decimal.naturalIn? 16 [a, b, c, d]

def Piece.ofUnit (n : Nat) : Piece :=
  if 0xD800 ≤ n ∧ n < 0xE000 then .surrogate n else .char (Char.ofNat n)

/-- The characters that a backslash and one more character stand for. -/
def simpleEscape? (c : Char) : Option Char :=
  if c = '\x22' ∨ c = '\\' ∨ c = '/' then some c
  else if c = 'b' then some '\x08'
  else if c = 'f' then some '\x0c'
  else if c = 'n' then some '\n'
  else if c = 'r' then some '\r'
  else if c = 't' then some '\t'
  else none

/-- The pieces of a string up to its closing quotation mark, and what follows the mark. -/
def pieces? : List Char → Option (List Piece × List Char)
  | [] => none
  | '\x22' :: rest => some ([], rest)
  | '\\' :: 'u' :: a :: b :: c :: d :: rest => do
    let n ← unit? a b c d
    let (ps, rest) ← pieces? rest
    return (Piece.ofUnit n :: ps, rest)
  | '\\' :: c :: rest => do
    let e ← simpleEscape? c
    let (ps, rest) ← pieces? rest
    return (.char e :: ps, rest)
  | c :: rest =>
    if c.toNat < 0x20 then none
    else (pieces? rest).map fun (ps, rest) => (.char c :: ps, rest)

/-- The text of a string, if its surrogates come in pairs, the high half first. -/
def text? : List Piece → Option (List Char)
  | [] => some []
  | .char c :: rest => (text? rest).map (c :: ·)
  | .surrogate high :: .surrogate low :: rest =>
    if high < 0xDC00 ∧ 0xDC00 ≤ low then
      (text? rest).map (Char.ofNat (0x10000 + (high - 0xD800) * 0x400 + (low - 0xDC00)) :: ·)
    else none
  | .surrogate _ :: _ => none

/-! ## the lexer -/

def isBlank (c : Char) : Bool := c == ' ' || c == '\n' || c == '\t' || c == '\r'

/-- The token that a punctuation character is. -/
def punctuation? (c : Char) : Option Token :=
  if c = '[' then some .beginArray
  else if c = ']' then some .endArray
  else if c = '\x7b' then some .beginObject
  else if c = '\x7d' then some .endObject
  else if c = ',' then some .comma
  else if c = ':' then some .colon
  else none

/-- The string, number or word at the start of a text, and what follows it. -/
def scalar? : List Char → Option (Token × List Char)
  | '\x22' :: rest => (pieces? rest).map fun (ps, rest) =>
    (.string ((text? ps).map String.ofList), rest)
  | 'n' :: 'u' :: 'l' :: 'l' :: rest => some (.null, rest)
  | 't' :: 'r' :: 'u' :: 'e' :: rest => some (.bool true, rest)
  | 'f' :: 'a' :: 'l' :: 's' :: 'e' :: rest => some (.bool false, rest)
  | s => (Literal.read? s).map fun (l, rest) => (.number l, rest)

theorem length_of_pieces? {s : List Char} {ps : List Piece} {rest : List Char}
    (h : pieces? s = some (ps, rest)) : rest.length < s.length := by
  fun_induction pieces? s generalizing ps rest <;>
    simp_all [Option.bind_eq_some_iff] <;> grind

theorem length_of_scalar? {s : List Char} {t : Token} {rest : List Char}
    (h : scalar? s = some (t, rest)) : rest.length < s.length := by
  unfold scalar? at h
  split at h
  · simp only [Option.map_eq_some_iff, Prod.mk.injEq, Prod.exists] at h
    obtain ⟨ps, q, hp, _, rfl⟩ := h
    have := length_of_pieces? hp
    simp only [List.length_cons]; omega
  · simp_all only [Option.some.injEq, Prod.mk.injEq, List.length_cons]; omega
  · simp_all only [Option.some.injEq, Prod.mk.injEq, List.length_cons]; omega
  · simp_all only [Option.some.injEq, Prod.mk.injEq, List.length_cons]; omega
  · simp only [Option.map_eq_some_iff, Prod.mk.injEq, Prod.exists] at h
    obtain ⟨l, q, hl, _, rfl⟩ := h
    exact Literal.length_of_read? hl

/-- The tokens of a text; `none` when it is not made of tokens and blanks. -/
def ofChars? : List Char → Option (List Token)
  | [] => some []
  | c :: cs =>
    if isBlank c then ofChars? cs
    else match punctuation? c with
      | some t => (ofChars? cs).map (t :: ·)
      | none =>
        match h : scalar? (c :: cs) with
        | none => none
        | some (t, rest) =>
          have := length_of_scalar? h
          (ofChars? rest).map (t :: ·)
termination_by s => s.length
decreasing_by all_goals simp only [List.length_cons] at *; omega

end Token

end InstallAssistant.Json
