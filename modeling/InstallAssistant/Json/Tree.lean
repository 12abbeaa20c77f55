import InstallAssistant.Json.Token
import InstallAssistant.Text.Utf8

/-!
# InstallAssistant.Json.Tree

A JSON text as a tree of what is written in it: members in their order, repeated
keys kept, number literals with their digits, strings that have no text marked as
such.  How deep a tree may be, which numbers and strings must have a value, and
which keys a record takes are questions for whoever reads it; here only the form
counts.

* `Tree.ofTokens?`: one pass over the tokens with a stack of open containers;
* `Tree.parse?`: from a text;
* `Tree.parseBytes?`: from bytes, which may be ill formed within strings;
* `Tree.ofJson`: a value as it would be written;
* `Tree.value?`: the value of a tree, which must not be deeper than a given room.
-/

namespace InstallAssistant.Json

inductive Tree
  | null
  | bool (b : Bool)
  | number (l : Literal)
  | string (text? : Option String)
  | array (items : List Tree)
  | object (members : List (Option String × Tree))
deriving Inhabited

namespace Tree

/-! ## from tokens -/

/-- A container that is still open, with what it holds so far in reverse. -/
inductive Frame
  | array (items : List Tree)
  | object (members : List (Option String × Tree)) (key : Option String)

/-- What may come next. -/
inductive Progress
  /-- A value must come. -/
  | value (stack : List Frame)
  /-- The first item of an array, or its end. -/
  | firstItem (stack : List Frame)
  /-- The first key of an object, or its end. -/
  | firstKey (stack : List Frame)
  /-- A key, after a comma. -/
  | key (members : List (Option String × Tree)) (stack : List Frame)
  /-- The colon after a key. -/
  | colon (members : List (Option String × Tree)) (key : Option String) (stack : List Frame)
  /-- A comma or the end of the innermost container; with none open, nothing. -/
  | after (value : Tree) (stack : List Frame)

/-- The tree that a token is, when it is one by itself. -/
def ofToken? : Token → Option Tree
  | .null => some .null
  | .bool b => some (.bool b)
  | .number l => some (.number l)
  | .string t => some (.string t)
  | _ => none

/-- A token where a value must come. -/
def beginValue (stack : List Frame) (t : Token) : Option Progress :=
  match t with
  | .beginArray => some (.firstItem stack)
  | .beginObject => some (.firstKey stack)
  | t => (ofToken? t).map (.after · stack)

def step : Progress → Token → Option Progress
  | .value stack, t => beginValue stack t
  | .firstItem stack, .endArray => some (.after (.array []) stack)
  | .firstItem stack, t => beginValue (.array [] :: stack) t
  | .firstKey stack, .endObject => some (.after (.object []) stack)
  | .firstKey stack, .string key => some (.colon [] key stack)
  | .key members stack, .string key => some (.colon members key stack)
  | .colon members key stack, .colon => some (.value (.object members key :: stack))
  | .after v (.array items :: stack), .comma => some (.value (.array (v :: items) :: stack))
  | .after v (.array items :: stack), .endArray =>
    some (.after (.array (v :: items).reverse) stack)
  | .after v (.object members key :: stack), .comma => some (.key ((key, v) :: members) stack)
  | .after v (.object members key :: stack), .endObject =>
    some (.after (.object ((key, v) :: members).reverse) stack)
  | _, _ => none

/-- The one tree that the tokens spell. -/
def ofTokens? (tokens : List Token) : Option Tree :=
  match tokens.foldlM step (.value []) with
  | some (.after v []) => some v
  | _ => none

/-- The tree that a text spells. -/
def parse? (s : String) : Option Tree := (Token.ofChars? s.toList).bind ofTokens?

/-- What an ill-formed symbol is read as.  Within a string, half a surrogate pair that follows a
letter leaves the string without text; elsewhere, and after a backslash, the letter is an error. -/
def illFormed : List Char := ['x', '\\', 'u', 'd', 'c', '0', '0']

/-- The tree that bytes spell.  Ill-formed symbols may only stand in strings, which have no text
then. -/
def parseBytes? (bytes : List UInt8) : Option Tree :=
  (Token.ofChars? ((Text.Utf8.symbols bytes).flatMap fun
    | some c => [c]
    | none => illFormed)).bind ofTokens?

/-! ## values -/

mutual

def ofJson : Json → Tree
  | .null => .null
  | .bool b => .bool b
  | .number n => .number (.ofNumber n)
  | .string s => .string (some s)
  | .array items => .array (ofItems items)
  | .object members => .object (ofMembers members)

def ofItems : List Json → List Tree
  | [] => []
  | v :: vs => ofJson v :: ofItems vs

def ofMembers : List (String × Json) → List (Option String × Tree)
  | [] => []
  | (k, v) :: ms => (some k, ofJson v) :: ofMembers ms

end

mutual

/-- The value of a tree in which containers are nested at most `room` deep. -/
def value? (room : Nat) : Tree → Option Json
  | .null => some .null
  | .bool b => some (.bool b)
  | .number l => l.value?.map .number
  | .string t => t.map .string
  | .array items => if room = 0 then none else (values? (room - 1) items).map .array
  | .object members =>
    if room = 0 then none else (memberValues? (room - 1) members).map Json.ofMembers

def values? (room : Nat) : List Tree → Option (List Json)
  | [] => some []
  | t :: ts => do
    let v ← value? room t
    let vs ← values? room ts
    return v :: vs

def memberValues? (room : Nat) : List (Option String × Tree) → Option (List (String × Json))
  | [] => some []
  | (k, t) :: ms => do
    let k ← k
    let v ← value? room t
    let vs ← memberValues? room ms
    return (k, v) :: vs

end

end Tree

/-- How deep the containers of a text may be nested. -/
def maxDepth : Nat := 127

/-- The value that a text spells. -/
def parse? (s : String) : Option Json := (Tree.parse? s).bind (Tree.value? maxDepth)

end InstallAssistant.Json
