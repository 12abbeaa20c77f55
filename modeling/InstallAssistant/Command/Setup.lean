import InstallAssistant.Chat.Prompt
import InstallAssistant.Chat.Tools
import InstallAssistant.Config.Yaml
import InstallAssistant.Encoder.Load

/-!
# InstallAssistant.Command.Setup

What several commands begin with, and how they write their results.
-/

namespace InstallAssistant.Command

variable {m : Type → Type} [Monad m]

/-- The prompter of a configuration, with the built-in tool unless there is a file of tools. -/
def prompter (h : Host m) (c : Config) : Task m Chat.Prompter := do
  match c.model.toolsFile with
  | some path => return ⟨Chat.chatML, ← Chat.loadTools h path⟩
  | none => return ⟨Chat.chatML, [Chat.shellTool]⟩

def encoder (h : Host m) (c : Config) : Task m Encoder :=
  Encoder.load h c.model.tokenizer c.model.padToken

/-- Where facts come from. -/
inductive FactsSource
  | saved (facts : Facts)
  | probed (pingHost : String)

/-- The facts in the given file, or that of the configuration; without a file, those of the machine
at the moment when they are asked for. -/
def factsSource (h : Host m) (c : Config) (file : Option String) : Task m FactsSource := do
  match file.or c.server.factsFile with
  | some path => return .saved (← h.savedFacts path)
  | none => return .probed c.facts.pingHost

def FactsSource.facts (h : Host m) : FactsSource → m Facts
  | .saved facts => return facts
  | .probed pingHost => h.facts pingHost

def writeJson (h : Host m) (path : String) (v : Json) : Task m Unit :=
  h.writeText s!"failed to write {path}" path v.pretty

end InstallAssistant.Command
