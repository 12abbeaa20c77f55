import InstallAssistant.Failure
import InstallAssistant.Facts.Probe
import InstallAssistant.Host.Directory
import InstallAssistant.Text.Utf8

/-!
# InstallAssistant.Host.Basic

What commands need from the place where they run: files, programs, the network,
the clock and a place to print.  Commands are written against the record `Host`
over any monad; `Host.ofDirectory` runs them on a directory that is a value.
-/

namespace InstallAssistant

/-- A request to a server: the address, and a JSON body that is posted there. -/
structure Host.Request where
  url : String
  body : String
deriving DecidableEq, Repr

structure Host.Response where
  status : Nat
  body : List UInt8
deriving DecidableEq, Repr

/-- What a client asks of a server. -/
structure Host.Call where
  method : String
  /-- The path, and a query after a question mark. -/
  target : String
  body : List UInt8
deriving DecidableEq, Repr

/-- The operations of a host.  `none` and `false` mean that an operation failed. -/
structure Host (m : Type → Type) where
  readBytes : (path : String) → m (Option (List UInt8))
  kind : (path : String) → m (Option Host.Kind)
  /-- The names in a folder, in any order. -/
  list : (path : String) → m (Option (List String))
  write : (path : String) → List UInt8 → m Bool
  /-- Makes a folder and all that it is in. -/
  makeFolders : (path : String) → m Bool
  print : String → m Unit
  readInput : m (Option (List UInt8))
  /-- The present time, as it is written into files. -/
  now : m String
  /-- Runs a program with arguments. -/
  run : String × List String → m (Option Facts.Run)
  linkTarget : (path : String) → m (Option String)
  post : Host.Request → m (Option Host.Response)
  /-- Begins to answer the calls at an address; the result is the address with the port in use. -/
  listen : (address : String) → (answer : Host.Call → m Host.Response) → m (Option String)
  /-- Waits until the user stops the program. -/
  wait : m Unit
  /-- For how many seconds the program has been running. -/
  uptime : m Nat

/-- A task on a host, which may fail. -/
abbrev Task (m : Type → Type) := ExceptT Failure m

namespace Host

variable {m : Type → Type} [Monad m]

/-- The text of a file; bytes that spell no text count as unreadable. -/
def readText (h : Host m) (path : String) : m (Option String) := do
  let bytes ← h.readBytes path
  return (bytes.bind Text.Utf8.decode?).map String.ofList

/-- The text of a file, or a failure with the given summary. -/
def needText (h : Host m) (summary path : String) : Task m String := do
  match ← h.readText path with
  | some text => return text
  | none => throw ⟨summary, [Failure.io]⟩

def exists? (h : Host m) (path : String) : m Bool := do
  return (← h.kind path).isSome

/-- Writes a text, or fails with the given summary. -/
def writeText (h : Host m) (summary path text : String) : Task m Unit := do
  unless ← h.write path (Text.Utf8.encode text) do
    throw ⟨summary, [Failure.io]⟩

def needFolders (h : Host m) (path : String) : Task m Unit := do
  unless ← h.makeFolders path do
    throw ⟨s!"failed to create {path}", [Failure.io]⟩

def printLine (h : Host m) (line : String) : m Unit := h.print (line ++ "\n")

/-! ## facts -/

/-- The answers of the host to all questions about it. -/
def answers (h : Host m) (pingHost : String) : m Facts.Answers := do
  return {
    devices := ← h.run Facts.Question.devices.command
    network := ← h.run (Facts.Question.network pingHost).command
    targetMounted := ← h.run Facts.Question.targetMounted.command
    hostname := ← h.run Facts.Question.hostname.command
    localTime := ← h.linkTarget "/etc/localtime"
    accounts := ← h.readText "/etc/passwd"
    firmwareVariables := ← h.exists? "/sys/firmware/efi/efivars" }

def facts (h : Host m) (pingHost : String) : m Facts := do
  return Facts.ofAnswers (← h.answers pingHost)

/-- The facts that are saved in a file. -/
def savedFacts (h : Host m) (path : String) : Task m Facts := do
  let text ← h.needText s!"failed to read facts file: {path}" path
  ExceptT.mk (pure (Facts.ofText text))

/-! ## a directory as a host -/

/-- A directory at work, with what has been printed. -/
structure Session where
  directory : Directory
  printed : String := ""
deriving DecidableEq, Repr

/-- A host that has a directory and an input, and nothing else: its clock stands still, it has no
programs, and it reaches no server. -/
def ofDirectory (input : List UInt8) (time : String) : Host (StateM Session) where
  readBytes path := return (← get).directory.read? path
  kind path := return (← get).directory.kind? path
  list path := return (← get).directory.list? path
  write path bytes := do
    match (← get).directory.write? path bytes with
    | some d => modify ({ · with directory := d }); return true
    | none => return false
  makeFolders path := do
    match (← get).directory.make? path with
    | some d => modify ({ · with directory := d }); return true
    | none => return false
  print text := modify fun s => { s with printed := s.printed ++ text }
  readInput := return some input
  now := return time
  run _ := return none
  linkTarget _ := return none
  post _ := return none
  listen _ _ := return none
  wait := return
  uptime := return 0

end Host

end InstallAssistant
