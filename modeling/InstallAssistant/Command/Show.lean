import InstallAssistant.Command.Setup
import InstallAssistant.Reply

/-!
# InstallAssistant.Command.Show

Commands that only show something: the action in generated text, and the facts of
the machine.
-/

namespace InstallAssistant.Command

variable {m : Type → Type} [Monad m]

/-- The text in a file, or that of the input. -/
def generatedText (h : Host m) (file : Option String) : Task m String := do
  match file with
  | some path => h.needText s!"failed to read {path}" path
  | none =>
    let bytes ← h.readInput
    match bytes.bind Text.Utf8.decode? with
    | some text => return String.ofList text
    | none => throw ⟨"failed to read stdin", [Failure.io]⟩

/-- Prints the action in generated text. -/
def decode (h : Host m) (file : Option String) : Task m Unit := do
  match Reply.decode (← generatedText h file) with
  | .ok action => h.printLine action.toJson.pretty
  | .error fault => throw ⟨fault.message, []⟩

/-- Prints the facts, as the system prompt has them or as JSON. -/
def showFacts (h : Host m) (c : Config) (file : Option String) (json : Bool) : Task m Unit := do
  let source ← factsSource h c file
  let facts ← (source.facts h : m Facts)
  h.printLine (if json then facts.toJson.pretty else facts.context)

end InstallAssistant.Command
