import InstallAssistant.Yaml.Node
import InstallAssistant.Yaml.Resolve

/-!
# InstallAssistant.Yaml.Reader

Reading a node as a value of a domain type.  A text may be written in any style
and looks like anything; numbers and truth values must be plain, or a literal
block with the tag of their type.  A collection whose value is left out is empty,
and a record takes no keys but its own, each once.
-/

namespace InstallAssistant.Yaml

/-- Reads a node, or fails when it is no form of the type. -/
abbrev Reader (α : Type) := Node → Option α

namespace Reader

variable {α : Type}

def string : Reader String
  | .scalar _ _ s => some s
  | _ => none

/-- The text of a scalar that may stand for something of a type. -/
def resolvable? (type : String) : Node → Option String
  | .scalar _ .plain s => some s
  | .scalar (some tag) .literal s => if tag == "tag:yaml.org,2002:" ++ type then some s else none
  | _ => none

def bool : Reader Bool := fun v => (resolvable? "bool" v).bind Resolve.bool?

/-- A whole number below a bound. -/
def natural (bound : Nat) : Reader Nat := fun v =>
  match (resolvable? "int" v).bind Resolve.natural? with
  | some n => if n < bound then some n else none
  | none => none

def float : Reader Float := fun v => (resolvable? "float" v).bind Resolve.float?

/-- Nothing, or what `r` reads. -/
def optional (r : Reader α) : Reader (Option α)
  | .scalar none .plain s =>
    if s.isEmpty || Resolve.isNull s then some none else (r (.scalar none .plain s)).map some
  | .scalar (some tag) .plain s =>
    if tag == "tag:yaml.org,2002:null" then if Resolve.isNull s then some none else none
    else (r (.scalar (some tag) .plain s)).map some
  | v => (r v).map some

def list (r : Reader α) : Reader (List α)
  | .sequence items => items.mapM r
  | .scalar _ .plain s => if s.isEmpty then some [] else none
  | _ => none

/-! ## records -/

/-- The values of a record, by key. -/
structure Fields where
  members : List (String × Node)

namespace Fields

/-- A field that stands for `d` when it is not there. -/
def withDefault (f : Fields) (name : String) (d : α) (r : Reader α) : Option α :=
  match f.members.find? fun (n, _) => n == name with
  | some (_, v) => r v
  | none => some d

end Fields

/-- A record with the given fields. -/
def record (names : List String) (body : Fields → Option α) : Reader α
  | .mapping entries => do
    let members ← entries.mapM fun (k, v) => do return (← string k, v)
    let keys := members.map (·.1)
    if keys.all names.contains && names.all (fun name => decide (keys.count name ≤ 1)) then
      body ⟨members⟩
    else none
  | .scalar _ .plain s => if s.isEmpty then body ⟨[]⟩ else none
  | _ => none

end Reader

end InstallAssistant.Yaml
