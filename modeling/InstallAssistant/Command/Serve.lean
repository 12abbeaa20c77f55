import InstallAssistant.Command.Setup
import InstallAssistant.Engine.Completion
import InstallAssistant.Server

/-!
# InstallAssistant.Command.Serve

Runs the query server of a configuration until the user stops it.
-/

namespace InstallAssistant.Command

variable {m : Type → Type} [Monad m]

def engineSettings (c : Config) : EngineSettings where
  maxTokens := c.server.maxTokens
  temperature := c.server.temperature
  topP := c.server.topP
  timeout := .ofSeconds c.server.timeoutSecs
  special := c.model.addSpecialTokens

/-- The server of a configuration. -/
def server (h : Host m) (c : Config) (factsFile : Option String) : Task m (Server m) := do
  let encoder ← encoder h c
  let source ← factsSource h c factsFile
  let prompter ← prompter h c
  return {
    engine := ⟨prompter, encoder, engineSettings c⟩
    generator := Completion.generator h c.server.backendUrl
    facts := source.facts h
    uptime := h.uptime }

def serve (h : Host m) (c : Config) (factsFile : Option String) : Task m Unit := do
  let address ← ExceptT.mk (pure c.server.address)
  let s ← server h c factsFile
  match ← h.listen address.text s.handle with
  | none => throw ⟨s!"failed to bind {address.text}", [Failure.io]⟩
  | some bound =>
    h.printLine s!"  listening on http://{bound}"
    h.printLine s!"  backend:    {c.server.backendUrl}"
    h.wait

end InstallAssistant.Command
