import InstallAssistant.Action
import InstallAssistant.Chat.Conversation
import InstallAssistant.Host.Basic

/-!
# InstallAssistant.Training.Record

Training records, one JSON object a line.  A record either tells which response
is expected, or is a transcript: then its last assistant message is the target,
and what comes after it does not count.

Files are read line by line.  A line that holds no record is skipped and counted;
blank lines are neither.
-/

namespace InstallAssistant.Training

open Chat

/-- A record that has been checked. -/
structure Example where
  /-- The file and line that it comes from. -/
  origin : String
  context : Option String
  /-- Ends with the target when no response is expected. -/
  messages : List Message
  expected : Option Action
deriving DecidableEq, Repr

/-- A record as it is written. -/
structure Record where
  context : Option String
  messages : List Message
  expected : Option Action.Expected
deriving DecidableEq, Repr

def Record.reader : Json.Reader Record :=
  .record ["system_context", "messages", "expected_response"] false fun fields => do
    return {
      context := ← fields.optional "system_context" .string
      messages := ← fields.required "messages" (.list Message.reader)
      expected := ← fields.optional "expected_response" Action.Expected.reader }

/-- The messages up to the last one of the assistant, if there is one. -/
def throughLastReply? (messages : List Message) : Option (List Message) :=
  match messages.reverse.dropWhile fun m => m.role != "assistant" with
  | [] => none
  | kept => some kept.reverse

namespace Example

def ofRecord (origin : String) (r : Record) : Except Failure Example :=
  match r.expected with
  | some e =>
    match Action.ofExpected e with
    | .ok a => .ok ⟨origin, r.context, r.messages, some a⟩
    | .error refusal => .error ⟨s!"{origin}: invalid expected_response", [refusal.message]⟩
  | none =>
    match throughLastReply? r.messages with
    | some messages => .ok ⟨origin, r.context, messages, none⟩
    | none =>
      let fault := "no expected_response and no assistant message to train on"
      .error ⟨s!"{origin}: {fault}", []⟩

/-- The example in a line of a file. -/
def ofLine (line origin : String) : Except Failure Example :=
  match Record.reader.parse? line with
  | some r => ofRecord origin r
  | none => .error ⟨s!"{origin}: invalid record JSON", [Failure.json]⟩

end Example

/-! ## files -/

/-- What has been loaded, and how many lines were skipped. -/
structure Loaded where
  files : List String
  examples : List Example
  skipped : Nat
deriving DecidableEq, Repr

/-- The examples among the lines of a file from line `n` on, and how many lines hold none. -/
def examplesOf (name : String) (n : Nat) : List (List Char) → List Example × Nat
  | [] => ([], 0)
  | line :: rest =>
    let (examples, skipped) := examplesOf name (n + 1) rest
    if Text.isBlankText line then (examples, skipped)
    else match Example.ofLine (Text.trim (String.ofList line)) s!"{name}:{n}" with
      | .ok e => (e :: examples, skipped)
      | .error _ => (examples, skipped + 1)

/-- The lines of a file as bytes; each ends in a line feed, with or without a return before it. -/
def byteLines (current : List UInt8) : List UInt8 → List (List UInt8)
  | [] => if current.isEmpty then [] else [current.reverse]
  | b :: bs =>
    if b = 10 then
      let line := match current with
        | 13 :: front => front
        | line => line
      line.reverse :: byteLines [] bs
    else byteLines (b :: current) bs

/-- The number of the first line whose bytes spell no text, counting from `n`. -/
def unreadableLine? (n : Nat) : List (List UInt8) → Option Nat
  | [] => none
  | line :: rest =>
    if (Text.Utf8.decode? line).isNone then some n else unreadableLine? (n + 1) rest

/-- The examples in the bytes of a file. -/
def examplesOfBytes (path : String) (bytes : List UInt8) : Except Failure (List Example × Nat) :=
  let lines := byteLines [] bytes
  match unreadableLine? 1 lines with
  | some n => .error ⟨s!"failed to read {path}:{n}", [Failure.io]⟩
  | none => .ok (examplesOf ((Host.Path.fileName? path).getD "") 1
      (lines.filterMap Text.Utf8.decode?))

section

variable {m : Type → Type} [Monad m]

/-- The data files under a path, in order of their names, or the path itself when it is a file. -/
def dataFiles (h : Host m) (path : String) : Task m (List String) := do
  match ← h.kind path with
  | none => throw ⟨s!"data path not found: {path}", []⟩
  | some .file => return [path]
  | some .folder =>
    match ← h.list path with
    | none => throw ⟨s!"failed to read data dir {path}", [Failure.io]⟩
    | some names =>
      let paths := (names.mergeSort (fun a b => decide (a ≤ b))).map (Host.Path.join path)
      paths.filterM fun p => do
        return (← h.kind p) == some .file && Host.Path.hasExtension "jsonl" p

/-- Adds the examples of a file. -/
def loadFile (h : Host m) (loaded : Loaded) (path : String) : Task m Loaded := do
  match ← h.readBytes path with
  | none => throw ⟨s!"failed to open {path}", [Failure.io]⟩
  | some bytes =>
    let (examples, skipped) ← ExceptT.mk (pure (examplesOfBytes path bytes))
    return { loaded with
      examples := loaded.examples ++ examples
      skipped := loaded.skipped + skipped }

/-- All examples under a path. -/
def load (h : Host m) (path : String) : Task m Loaded := do
  let files ← dataFiles h path
  files.foldlM (loadFile h) ⟨files, [], 0⟩

end

end InstallAssistant.Training
