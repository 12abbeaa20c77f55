import InstallAssistant.Json.Tree

/-!
# InstallAssistant.Json.Reader

Reading a tree as a value of a domain type.  A reader is given the room that is
left, which is how many containers may still be opened inside each other, and
fails when the tree is no form of the type.

A record is read from an object, or from an array of its fields in their order.
In an object no field may be given twice, and a strict record takes no other
keys.  In an array the fields at the end may be left out as far as they have a
default; there may be no further items.  What a record does not take is skipped,
whatever its depth and whether or not it has a value.
-/

namespace InstallAssistant.Json

/-- Reads a tree, given how many containers may still be nested. -/
abbrev Reader (α : Type) := (room : Nat) → Tree → Option α

namespace Reader

variable {α : Type}

def string : Reader String
  | _, .string t => t
  | _, _ => none

def bool : Reader Bool
  | _, .bool b => some b
  | _, _ => none

/-- A whole number below a bound. -/
def natural (bound : Nat) : Reader Nat
  | _, .number l =>
    match l.value? with
    | some (.natural n) => if n < bound then some n else none
    | _ => none
  | _, _ => none

/-- A whole number in 64 signed bits. -/
def integer : Reader Int
  | _, .number l =>
    match l.value? with
    | some (.natural n) => if n < 2 ^ (63 : Nat) then some n else none
    | some (.negative n) => some (-n)
    | _ => none
  | _, _ => none

/-- Any value. -/
def value : Reader Json := Tree.value?

/-- `null`, or what `r` reads. -/
def optional (r : Reader α) : Reader (Option α)
  | _, .null => some none
  | room, t => (r room t).map some

/-- An array of what `r` reads. -/
def list (r : Reader α) : Reader (List α)
  | room, .array items => if room = 0 then none else items.mapM (r (room - 1))
  | _, _ => none

/-- The members of an object with any keys, in their order. -/
def dictionary (r : Reader α) : Reader (List (String × α))
  | room, .object members =>
    if room = 0 then none
    else members.mapM fun (k, t) => do return (← k, ← r (room - 1) t)
  | _, _ => none

/-! ## records -/

/-- How a record gives one of its fields. -/
inductive Slot
  | given (t : Tree)
  /-- The record is an object without the key. -/
  | absent
  /-- The record is an array that ends before the field. -/
  | cutOff

/-- The fields of a record, and the room inside it. -/
structure Fields where
  room : Nat
  slots : List (String × Slot)

namespace Fields

def slot (f : Fields) (name : String) : Slot :=
  match f.slots.find? fun (n, _) => n == name with
  | some (_, s) => s
  | none => .absent

/-- A field that must be there. -/
def required (f : Fields) (name : String) (r : Reader α) : Option α :=
  match f.slot name with
  | .given t => r f.room t
  | _ => none

/-- A field that stands for `d` when it is not there. -/
def withDefault (f : Fields) (name : String) (d : α) (r : Reader α) : Option α :=
  match f.slot name with
  | .given t => r f.room t
  | _ => some d

/-- A field that may be `null` or missing. -/
def optional (f : Fields) (name : String) (r : Reader α) : Option (Option α) :=
  f.withDefault name none (Reader.optional r)

/-- A field that may be `null`, or missing from an object, but not cut off from an array. -/
def nullable (f : Fields) (name : String) (r : Reader α) : Option (Option α) :=
  match f.slot name with
  | .given t => Reader.optional r f.room t
  | .absent => some none
  | .cutOff => none

end Fields

/-- The fields in the members of an object. -/
def memberSlots? (names : List String) (strict : Bool) (members : List (Option String × Tree)) :
    Option (List (String × Slot)) := do
  let keys ← members.mapM (·.1)
  if names.any fun name => decide (1 < keys.count name) then none
  else if strict && keys.any fun key => !names.contains key then none
  else
    return names.map fun name =>
      (name, match members.find? fun (k, _) => k == some name with
        | some (_, t) => .given t
        | none => .absent)

/-- The fields in the items of an array. -/
def itemSlots? : (names : List String) → (items : List Tree) → Option (List (String × Slot))
  | [], [] => some []
  | [], _ :: _ => none
  | name :: names, [] => (itemSlots? names []).map ((name, .cutOff) :: ·)
  | name :: names, t :: ts => (itemSlots? names ts).map ((name, .given t) :: ·)

/-- A record with the given fields. -/
def record (names : List String) (strict : Bool) (body : Fields → Option α) : Reader α
  | room, .object members =>
    if room = 0 then none
    else (memberSlots? names strict members).bind fun slots => body ⟨room - 1, slots⟩
  | room, .array items =>
    if room = 0 then none
    else (itemSlots? names items).bind fun slots => body ⟨room - 1, slots⟩
  | _, _ => none

/-- One of some words, written as a string or as the only key of an object with value `null`. -/
def word (ofWord? : String → Option α) : Reader α
  | _, .string t => t.bind ofWord?
  | room, .object [(k, .null)] => if room = 0 then none else k.bind ofWord?
  | _, _ => none

/-! ## texts -/

/-- Reads a whole text. -/
def parse? (r : Reader α) (s : String) : Option α := (Tree.parse? s).bind (r maxDepth)

/-- Reads whole bytes, of which only skipped strings may be ill formed. -/
def parseBytes? (r : Reader α) (bytes : List UInt8) : Option α :=
  (Tree.parseBytes? bytes).bind (r maxDepth)

end Reader

end InstallAssistant.Json
