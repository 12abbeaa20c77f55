import InstallAssistant.Engine.Basic
import InstallAssistant.Host.Basic
import InstallAssistant.Host.Status

/-!
# InstallAssistant.Engine.Completion

A generator that is a server of its own.  It is sent the ids of the prompt, and
asked for the ids that it generates, so that the same encoder reads them which
wrote the prompt.
-/

namespace InstallAssistant.Completion

variable {m : Type → Type} [Monad m]

def endpoint (server : String) : String :=
  String.ofList (Text.dropEnd '/' server.toList) ++ "/completion"

/-- What the server is sent. -/
def requestJson (prompt : List UInt32) (s : Sampling) : Json :=
  .ofMembers [("prompt", .array (prompt.map fun id => .nat id.toNat)),
    ("n_predict", .nat s.maxTokens), ("temperature", .ofFloat s.temperature.toFloat),
    ("top_p", .ofFloat s.topP.toFloat), ("stop", .strings s.stop),
    ("return_tokens", .bool true), ("cache_prompt", .bool true)]

/-- The ids in the reply of the server, or nothing where they should be. -/
def replyReader : Json.Reader (Option (List UInt32)) :=
  .record ["tokens"] false fun fields => do
    let tokens ← fields.optional "tokens" (.list (.natural UInt32.size))
    return tokens.map fun ids => ids.map UInt32.ofNat

def reply? (body : List UInt8) : Option (Option (List UInt32)) :=
  replyReader.parseBytes? body

/-- What comes of a response, or of none. -/
def outcome : Option Host.Response → Outcome
  | none => .failed ⟨Failure.http, []⟩
  | some response =>
    if Host.Status.isSuccess response.status then
      match reply? response.body with
      | none => .failed ⟨"completion server sent an unreadable body", [Failure.http]⟩
      | some none => .failed ⟨"completion server did not return tokens", []⟩
      | some (some ids) => .ids ids
    else
      let status := Host.Status.text response.status
      let body := String.ofList (Text.Utf8.decodeLossy response.body)
      .failed ⟨s!"completion server returned {status}: {body}", []⟩

/-- The generator at an address. -/
def generator (h : Host m) (server : String) : Generator m where
  name := "completion-server"
  generate prompt s := do
    return outcome (← h.post ⟨endpoint server, (requestJson prompt s).compact⟩)

end InstallAssistant.Completion
