import InstallAssistant.Action
import InstallAssistant.Device.Mention
import InstallAssistant.Facts.Basic
import InstallAssistant.Text.Ordered

/-!
# InstallAssistant.Device.Guard

No command goes out that names a device which the machine does not have.  A
command with unknown devices is replaced with an answer that names them; the
reasoning stays.
-/

namespace InstallAssistant.Device

/-! ## sets of devices -/

/-- The devices that exist, in increasing order of their paths. -/
structure Known where
  paths : List String
deriving DecidableEq, Repr

namespace Known

def ofList (paths : List String) : Known := ⟨Text.Ordered.ofList paths⟩

def ofFacts (f : Facts) : Known := ofList f.devicePaths

def contains (k : Known) (path : String) : Bool := k.paths.contains path

end Known

/-- Device nodes that every system has and that are no disks. -/
def pseudoDevices : List String :=
  ["/dev/null", "/dev/zero", "/dev/random", "/dev/urandom", "/dev/stdin", "/dev/stdout",
    "/dev/stderr"]

/-- Whether a command may name a path. -/
def Known.allows (k : Known) (path : String) : Bool :=
  pseudoDevices.contains path || k.contains path

/-! ## the guard -/

/-- The devices because of which a command was replaced. -/
structure Downgrade where
  blocked : List String
deriving DecidableEq, Repr

namespace Downgrade

/-- The blocked devices in one line. -/
def listed (d : Downgrade) : String := Text.join ", " d.blocked

def warning (d : Downgrade) : String := "Blocked hallucinated disk: " ++ d.listed

def answer (d : Downgrade) : String :=
  s!"I couldn't find {d.listed} on this system. Let me check what disks are available."

/-- What to run instead. -/
def suggestedCommand (_ : Downgrade) : String := "lsblk"

end Downgrade

/-- An action that may go out, with the reason if it is not the one that was asked for. -/
structure Verified where
  action : Action
  downgrade : Option Downgrade
deriving DecidableEq, Repr

/-- The paths in a command that name no known device. -/
def unknownPaths (known : Known) (command : String) : List String :=
  (paths command).filter fun p => !known.allows p

def verify (known : Known) (a : Action) : Verified :=
  match a.kind with
  | .text => ⟨a, none⟩
  | .command =>
    match unknownPaths known a.content with
    | [] => ⟨a, none⟩
    | blocked =>
      let d : Downgrade := ⟨blocked⟩
      ⟨⟨.text, d.answer, a.thinking⟩, some d⟩

end InstallAssistant.Device
