import InstallAssistant.CommandLine.Run
import Std.Time.Format

/-!
# InstallAssistant.Main

The program: command lines on the machine where it runs.  Files, folders, the
input and the clock are those of the machine.  It starts no other programs and
opens no connections, so facts that others would tell are not known, and servers
count as out of reach.
-/

namespace InstallAssistant.Machine

/-- The result of an action, unless it fails. -/
def attempt {α : Type} (action : IO α) : IO (Option α) := do
  try return some (← action) catch _ => return none

def succeeds (action : IO Unit) : IO Bool := do
  return (← attempt action).isSome

def bytes (b : ByteArray) : List UInt8 := b.toList

def ofBytes (b : List UInt8) : ByteArray := ⟨b.toArray⟩

def kind (path : String) : IO (Option Host.Kind) := attempt do
  match (← (← IO.FS.realPath path).metadata).type with
  | .dir => return .folder
  | _ => return .file

def list (path : String) : IO (List String) := do
  return (← (← IO.FS.realPath path).readDir).toList.map (·.fileName)

def makeFolders (path : String) : IO Unit := do
  unless path.isEmpty do IO.FS.createDirAll path

/-- All that is left of the input. -/
partial def readAll (input : IO.FS.Stream) (read : ByteArray) : IO ByteArray := do
  let more ← input.read 65536
  if more.isEmpty then return read else readAll input (read ++ more)

/-- The present time, to the nanosecond. -/
def now : IO String := do
  let nanoseconds := (← Std.Time.Timestamp.now).toNanosecondsSinceUnixEpoch
  let time := Std.Time.PlainDateTime.ofWallTime (.ofNanoseconds nanoseconds)
  return time.format "uuuu-MM-dd'T'HH:mm:ss.SSSSSSSSS" ++ "Z"

/-- The machine as a host. -/
def host : Host IO where
  readBytes path := attempt do return bytes (← IO.FS.readBinFile path)
  kind
  list path := attempt (list path)
  write path content := succeeds (IO.FS.writeBinFile path (ofBytes content))
  makeFolders path := succeeds (makeFolders path)
  print text := do
    let output ← IO.getStdout
    output.putStr text
    output.flush
  readInput := attempt do return bytes (← readAll (← IO.getStdin) .empty)
  now
  run _ := return none
  linkTarget path := attempt do return toString (← IO.FS.realPath path)
  post _ := return none
  listen _ _ := return none
  wait := return
  uptime := do return (← IO.monoMsNow) / 1000

/-- The folder that holds the default configuration. -/
def home : IO String := do
  return Config.homeFolder (← IO.getEnv "INSTALLER_LLM_HOME") ((← IO.getEnv "HOME").getD ".")

end InstallAssistant.Machine

open InstallAssistant in
def main (words : List String) : IO UInt32 := do
  let ending ← CommandLine.execute Machine.host (← Machine.home) words
  match ending with
  | .done => pure ()
  | .failed failure => IO.eprintln s!"Error: {failure.chain}"
  | .help => IO.println CommandLine.usage
  | .misuse => IO.eprintln CommandLine.usage
  return .ofNat ending.code
