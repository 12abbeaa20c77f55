/-!
# InstallAssistant.Markup

Tags in generated text.  A tag is `<`, a name, `>`: the name is made of letters,
digits and `_ - | / : .`, and begins, after any slashes, with a letter or a bar.
All other characters, angle brackets that belong to no tag included, stand for
themselves.

* `scan`: a text as pieces, each a character or a tag; `spell` is its inverse;
* `cutAt?`: the pieces before and after the first tag of a name;
* `tags`: where the tags are, in bytes.
-/

namespace InstallAssistant.Markup

inductive Piece
  | char (c : Char)
  | tag (name : List Char)
deriving DecidableEq, Repr

/-! ## names -/

def isTagChar (c : Char) : Bool :=
  c.isAlphanum || c == '_' || c == '-' || c == '|' || c == '/' || c == ':' || c == '.'

def isTagName (name : List Char) : Bool :=
  match name.dropWhile (· == '/') with
  | c :: _ => c.isAlpha || c == '|'
  | [] => false

/-! ## pieces -/

/-- The pieces of a text, from left to right. -/
def scan : List Char → List Piece
  | [] => []
  | c :: cs =>
    if c = '<' then
      match _h : cs.dropWhile isTagChar with
      | '>' :: rest =>
        if isTagName (cs.takeWhile isTagChar) then .tag (cs.takeWhile isTagChar) :: scan rest
        else .char '<' :: scan cs
      | _ => .char '<' :: scan cs
    else .char c :: scan cs
termination_by s => s.length
decreasing_by
  all_goals simp_wf
  have := (List.dropWhile_sublist isTagChar (l := cs)).length_le
  simp only [_h, List.length_cons] at this
  omega

def Piece.spell : Piece → List Char
  | .char c => [c]
  | .tag name => '<' :: (name ++ ['>'])

/-- The text that pieces stand for. -/
def spell (pieces : List Piece) : List Char := pieces.flatMap Piece.spell

/-- The pieces before and after the first tag of a name. -/
def cutAt? (name : String) : List Piece → Option (List Piece × List Piece)
  | [] => none
  | p :: ps =>
    if p = .tag name.toList then some ([], ps)
    else (cutAt? name ps).map fun (front, rest) => (p :: front, rest)

/-- The text of the pieces without their tags. -/
def strip : List Piece → List Char
  | [] => []
  | .char c :: ps => c :: strip ps
  | .tag _ :: ps => strip ps

/-! ## positions -/

/-- A tag and where it stands: the bytes from `start` up to `stop`. -/
structure Tag where
  name : List Char
  start : Nat
  stop : Nat
deriving DecidableEq, Repr

/-- The number of bytes of a text. -/
def byteLength (s : List Char) : Nat := s.foldr (fun c n => c.utf8Size + n) 0

/-- The tags among pieces that begin at a position. -/
def tagsFrom (start : Nat) : List Piece → List Tag
  | [] => []
  | .char c :: ps => tagsFrom (start + c.utf8Size) ps
  | .tag name :: ps =>
    let stop := start + byteLength (Piece.tag name).spell
    ⟨name, start, stop⟩ :: tagsFrom stop ps

def tags (s : List Char) : List Tag := tagsFrom 0 (scan s)

end InstallAssistant.Markup
