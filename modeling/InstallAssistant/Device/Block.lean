import InstallAssistant.Json.Reader
import InstallAssistant.Json.Printer

/-!
# InstallAssistant.Device.Block

Block devices as a machine lists them: disks, and under each the partitions and
mappings that it carries.  A listing is read from, and written as, JSON.
-/

namespace InstallAssistant

structure BlockDevice where
  name : String
  size : Option String
  kind : Option String
  mountpoint : Option String
  fstype : Option String
  model : Option String
  children : List BlockDevice
deriving BEq

namespace BlockDevice

def isDisk (d : BlockDevice) : Bool := d.kind == some "disk"

/-- The path of the device node. -/
def path (d : BlockDevice) : String := "/dev/" ++ d.name

mutual

/-- The paths of a device and of everything below it, a parent before its children. -/
def paths (d : BlockDevice) : List String :=
  match d with
  | ⟨name, _, _, _, _, _, children⟩ => ("/dev/" ++ name) :: listPaths children

def listPaths : List BlockDevice → List String
  | [] => []
  | d :: ds => paths d ++ listPaths ds

end

/-! ## JSON -/

/-- Reads a device with at most `depth` generations. -/
def readerTo : (depth : Nat) → Json.Reader BlockDevice
  | 0 => fun _ _ => none
  | depth + 1 =>
    .record ["name", "size", "type", "mountpoint", "fstype", "model", "children"] false
      fun fields => do
        return {
          name := ← fields.required "name" .string
          size := ← fields.optional "size" .string
          kind := ← fields.optional "type" .string
          mountpoint := ← fields.optional "mountpoint" .string
          fstype := ← fields.optional "fstype" .string
          model := ← fields.optional "model" .string
          children := ← fields.withDefault "children" [] (.list (readerTo depth)) }

/-- A device is an object that holds a list of devices, so the depth of a text bounds the number
of generations. -/
def reader : Json.Reader BlockDevice := readerTo Json.maxDepth

mutual

def toJson (d : BlockDevice) : Json :=
  match d with
  | ⟨name, size, kind, mountpoint, fstype, model, children⟩ =>
    .object [("name", .string name), ("size", .ofText? size), ("type", .ofText? kind),
      ("mountpoint", .ofText? mountpoint), ("fstype", .ofText? fstype), ("model", .ofText? model),
      ("children", .array (listToJson children))]

def listToJson : List BlockDevice → List Json
  | [] => []
  | d :: ds => toJson d :: listToJson ds

end

/-- The devices of a listing, an object with the list under `blockdevices`. -/
def listingReader : Json.Reader (List BlockDevice) :=
  .record ["blockdevices"] false fun fields =>
    fields.withDefault "blockdevices" [] (.list reader)

end BlockDevice

end InstallAssistant
