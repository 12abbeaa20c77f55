import InstallAssistant.Decimal.Binary

/-!
# InstallAssistant.Json.Value

JSON values.  An object is a list of members; one that was built by `ofMembers`
has its keys in increasing order, each once, and the last member given for a key
is the one that counts.
-/

namespace InstallAssistant

/-- A JSON number: a natural number, the negative of one, or a finite float. -/
inductive Json.Number
  | natural (n : Nat)
  | negative (n : Nat)
  | float (x : Float)
deriving Inhabited, BEq

inductive Json
  | null
  | bool (b : Bool)
  | number (n : Json.Number)
  | string (s : String)
  | array (items : List Json)
  | object (members : List (String × Json))
deriving Inhabited, BEq

namespace Json

/-! ## building -/

def nat (n : Nat) : Json := .number (.natural n)

def int (n : Int) : Json :=
  match n with
  | .ofNat n => .number (.natural n)
  | .negSucc n => .number (.negative (n + 1))

/-- A float as a number; what is not finite has no number and becomes `null`. -/
def ofFloat (x : Float) : Json :=
  match Decimal.ofFloat x with
  | (_, .finite ..) => .number (.float x)
  | _ => .null

def strings (xs : List String) : Json := .array (xs.map .string)

/-- A text, or `null` when there is none. -/
def ofText? : Option String → Json
  | some s => .string s
  | none => .null

/-- The member `key`, when there is a text for it. -/
def textMember (key : String) (text? : Option String) : List (String × Json) :=
  match text? with
  | some s => [(key, .string s)]
  | none => []

/-! ## objects -/

/-- Sets a member in a list of members with increasing keys. -/
def setMember (key : String) (value : Json) : List (String × Json) → List (String × Json)
  | [] => [(key, value)]
  | (k, v) :: rest =>
    if key < k then (key, value) :: (k, v) :: rest
    else if key = k then (key, value) :: rest
    else (k, v) :: setMember key value rest

/-- The members in increasing order of their keys, the last of each key. -/
def sortMembers (members : List (String × Json)) : List (String × Json) :=
  members.foldl (fun sorted (key, value) => setMember key value sorted) []

def ofMembers (members : List (String × Json)) : Json := .object (sortMembers members)

/-- The member of an object under a key. -/
def member? (key : String) : Json → Option Json
  | .object members => (members.find? fun (k, _) => k == key).map (·.2)
  | _ => none

def text? : Json → Option String
  | .string s => some s
  | _ => none

def isObject : Json → Bool
  | .object _ => true
  | _ => false

end Json

end InstallAssistant
