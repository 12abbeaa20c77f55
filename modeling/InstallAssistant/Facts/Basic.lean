import InstallAssistant.Device.Block
import InstallAssistant.Failure
import InstallAssistant.Text.Blank
import InstallAssistant.Text.Lines

/-!
# InstallAssistant.Facts.Basic

What is known of the machine at one moment.  Facts are shown to the model as a
block of text (`Facts.context`), and tell which devices there are
(`Facts.devicePaths`): each disk and all that it carries.
-/

namespace InstallAssistant

structure Facts where
  uefi : Bool := false
  network : Bool := false
  hostname : Option String := none
  timezone : Option String := none
  /-- Whether the system that is being installed is mounted under `/mnt`. -/
  targetMounted : Bool := false
  users : List String := []
  devices : List BlockDevice := []
deriving BEq

namespace Facts

def disks (f : Facts) : List BlockDevice := f.devices.filter BlockDevice.isDisk

/-- The paths of all disks and of everything on them. -/
def devicePaths (f : Facts) : List String := BlockDevice.listPaths f.disks

/-! ## as text -/

/-- A text that is there and not empty, after a beginning and before an end. -/
def wrapped (front back : String) (text? : Option String) : String :=
  match text? with
  | some s => if s.isEmpty then "" else front ++ s ++ back
  | none => ""

mutual

/-- The lines of a device below a disk and of what it carries, one step further in. -/
def deviceLines (depth : Nat) (d : BlockDevice) : List String :=
  match d with
  | ⟨name, size, _, mountpoint, fstype, _, children⟩ =>
    (String.ofList (List.replicate (2 * depth) ' ') ++ "- /dev/" ++ name ++ ": " ++
      size.getD "?" ++ wrapped " [" "]" fstype ++ wrapped " mounted at " "" mountpoint) ::
    deviceListLines (depth + 1) children

def deviceListLines (depth : Nat) : List BlockDevice → List String
  | [] => []
  | d :: ds => deviceLines depth d ++ deviceListLines depth ds

end

def diskLines (d : BlockDevice) : List String :=
  let size := d.size.getD "?"
  let model := (d.model.bind Text.nonBlank?).getD "Unknown"
  s!"- {d.path}: {size} ({model})" :: deviceListLines 1 d.children

/-- The lines of a section after a title, or nothing when the section has no lines. -/
def titled (title : String) : List String → List String
  | [] => []
  | lines => "" :: title :: "" :: lines

/-- The facts as the model sees them. -/
def context (f : Facts) : String :=
  Text.join "\n" <|
    ["## Current System State", "",
      "- Boot mode: " ++ (if f.uefi then "UEFI" else "Legacy BIOS"),
      "- Network: " ++ (if f.network then "Connected" else "Not connected"),
      "- Hostname: " ++ f.hostname.getD "unknown",
      "- Timezone: " ++ f.timezone.getD "not set"] ++
    titled "## Available Disks" (f.disks.flatMap diskLines) ++
    titled "## Current Mounts"
      (if f.targetMounted then ["Target partitions are mounted under /mnt"] else []) ++
    (if f.users.isEmpty then [] else ["", "## Existing Users: " ++ Text.join ", " f.users])

/-! ## as JSON -/

def reader : Json.Reader Facts :=
  .record ["uefi", "network", "hostname", "timezone", "target_mounted", "users", "devices"] true
    fun fields => do
      return {
        uefi := ← fields.withDefault "uefi" false .bool
        network := ← fields.withDefault "network" false .bool
        hostname := ← fields.optional "hostname" .string
        timezone := ← fields.optional "timezone" .string
        targetMounted := ← fields.withDefault "target_mounted" false .bool
        users := ← fields.withDefault "users" [] (.list .string)
        devices := ← fields.withDefault "devices" [] (.list BlockDevice.reader) }

def toJson (f : Facts) : Json :=
  .object [("uefi", .bool f.uefi), ("network", .bool f.network),
    ("hostname", .ofText? f.hostname), ("timezone", .ofText? f.timezone),
    ("target_mounted", .bool f.targetMounted), ("users", .strings f.users),
    ("devices", .array (BlockDevice.listToJson f.devices))]

/-- The devices of a listing. -/
def listing (text : String) : Except Failure (List BlockDevice) :=
  match BlockDevice.listingReader.parse? text with
  | some devices => .ok devices
  | none => .error ⟨"invalid lsblk JSON", [Failure.json]⟩

/-- Saved facts: either all of them, or a listing of the devices, with which everything else is as
if nothing were known. -/
def ofText (text : String) : Except Failure Facts :=
  match Json.parse? text with
  | none => .error ⟨"facts file is not JSON", [Failure.json]⟩
  | some v =>
    if (v.member? "blockdevices").isSome then
      (listing text).map fun devices => { devices }
    else match reader Json.maxDepth (.ofJson v) with
      | some facts => .ok facts
      | none => .error ⟨"invalid facts file", [Failure.json]⟩

end Facts

end InstallAssistant
