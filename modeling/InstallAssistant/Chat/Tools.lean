import InstallAssistant.Action
import InstallAssistant.Host.Basic

/-!
# InstallAssistant.Chat.Tools

The tools that a model is told about.  There is one built-in tool, which runs a
shell command; a file of tool definitions may take its place.
-/

namespace InstallAssistant.Chat

/-- The built-in tool. -/
def shellTool : Json :=
  .object [
    ("function", .object [
      ("description", .string "Execute a shell command for system installation tasks."),
      ("name", .string Action.shellTool),
      ("parameters", .object [
        ("properties", .object [
          ("command", .object [
            ("description", .string "The shell command to execute"),
            ("type", .string "string")])]),
        ("required", .array [.string "command"]),
        ("type", .string "object")])]),
    ("type", .string "function")]

/-- The tools in the text of a file: objects, at least one of them. -/
def toolsOfText (path text : String) : Except Failure (List Json) :=
  match (Json.Reader.list .value).parse? text with
  | none => .error ⟨s!"{path}: expected a JSON array of tool definitions", [Failure.json]⟩
  | some [] => .error ⟨s!"{path}: tools file is empty", []⟩
  | some tools =>
    match tools.findIdx? fun t => !t.isObject with
    | some i => .error ⟨s!"{path}: tool #{i} is not a JSON object", []⟩
    | none => .ok tools

/-- The tools in a file. -/
def loadTools {m : Type → Type} [Monad m] (h : Host m) (path : String) : Task m (List Json) := do
  let text ← h.needText s!"failed to read tools file {path}" path
  liftExcept (toolsOfText path text)
where
  liftExcept (r : Except Failure (List Json)) : Task m (List Json) := ExceptT.mk (pure r)

end InstallAssistant.Chat
