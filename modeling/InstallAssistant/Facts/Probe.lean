import InstallAssistant.Facts.Basic
import InstallAssistant.Decimal.Reading
import InstallAssistant.Text.Utf8

/-!
# InstallAssistant.Facts.Probe

Facts gathered from a running machine.  Each fact comes from a probe of its own:
a program that is run, or a file that is read.  A probe that fails leaves its
fact at a neutral value, so gathering facts always succeeds.
-/

namespace InstallAssistant.Facts

/-! ## programs -/

/-- What a program printed, and the code it ended with. -/
structure Run where
  output : List UInt8
  code : Nat
deriving DecidableEq, Repr

/-- The printed text, with replacement characters for what is not well formed. -/
def Run.text (r : Run) : String := String.ofList (Text.Utf8.decodeLossy r.output)

/-- What a machine is asked. -/
inductive Question
  | devices
  | network (host : String)
  | targetMounted
  | hostname
deriving DecidableEq, Repr

/-- The program that answers a question, and its arguments. -/
def Question.command : Question → String × List String
  | .devices => ("lsblk", ["-J", "-o", "NAME,SIZE,TYPE,MOUNTPOINT,FSTYPE,MODEL"])
  | .network host => ("ping", ["-c", "1", "-W", "2", host])
  | .targetMounted => ("findmnt", ["-n", "-M", "/mnt"])
  | .hostname => ("hostname", [])

/-- The devices of a listing that was printed without error. -/
def devicesFrom (run : Option Run) : List BlockDevice :=
  match run with
  | some r => if r.code = 0 then (BlockDevice.listingReader.parse? r.text).getD [] else []
  | none => []

def networkFrom (run : Option Run) : Bool := run.any fun r => r.code == 0

def targetMountedFrom (run : Option Run) : Bool :=
  run.any fun r => r.code == 0 && !r.output.isEmpty

/-- The host name is what was printed, even if the program reported an error. -/
def hostnameFrom? (run : Option Run) : Option String := run.bind fun r => Text.nonBlank? r.text

/-! ## files -/

/-- The zone that the link of the local time points to: what follows the zone directory. -/
def timezoneFrom? (link : String) : Option String :=
  (Text.cut? "zoneinfo/".toList link.toList).bind fun (_, zone) =>
    if zone.isEmpty then none else some (String.ofList zone)

/-- The name in a line of the account file, if the account is one of a person. -/
def userFrom? (line : List Char) : Option String :=
  match Text.splitOn ':' (Text.trimChars line) with
  | name :: _ :: uid :: _ :: _ :: _ :: _ :: _ =>
    match Decimal.natural? UInt32.size uid with
    | some n => if 1000 ≤ n ∧ n < 60000 then some (String.ofList name) else none
    | none => none
  | _ => none

/-- The accounts of people. -/
def usersFrom (accounts : String) : List String := (Text.lines accounts.toList).filterMap userFrom?

/-! ## all of it -/

/-- The answers that a machine gave. -/
structure Answers where
  devices : Option Run
  network : Option Run
  targetMounted : Option Run
  hostname : Option Run
  /-- Where the link of the local time points to. -/
  localTime : Option String
  /-- The account file. -/
  accounts : Option String
  /-- Whether the firmware shows its variables. -/
  firmwareVariables : Bool

def ofAnswers (a : Answers) : Facts where
  uefi := a.firmwareVariables
  network := networkFrom a.network
  hostname := hostnameFrom? a.hostname
  timezone := a.localTime.bind timezoneFrom?
  targetMounted := targetMountedFrom a.targetMounted
  users := (a.accounts.map usersFrom).getD []
  devices := devicesFrom a.devices

end InstallAssistant.Facts
