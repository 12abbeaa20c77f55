import InstallAssistant.Command.Compile
import InstallAssistant.Command.Evaluate
import InstallAssistant.Command.Serve
import InstallAssistant.Command.Show
import InstallAssistant.Command.Sweep
import InstallAssistant.CommandLine.Invocation

/-!
# InstallAssistant.CommandLine.Run

Runs a command line on a host.
-/

namespace InstallAssistant.CommandLine

variable {m : Type → Type} [Monad m]

/-- A configuration with overrides, or the failure that they make it invalid. -/
def overridden (c : Config) (o : Overrides) : Task m Config := ExceptT.mk (pure (o.apply c))

/-- A configuration whose server listens elsewhere, and uses another backend. -/
def withServer (c : Config) (addr backend : Option String) : Config :=
  { c with server := { c.server with
      addr := addr.getD c.server.addr
      backendUrl := backend.getD c.server.backendUrl } }

def Invocation.run (h : Host m) (c : Config) : Invocation → Task m Unit
  | .compile data output o => do Command.compile h (← overridden c o) data output
  | .serve addr backend factsFile o => do
    Command.serve h (← overridden (withServer c addr backend) o) factsFile
  | .decode file => Command.decode h file
  | .facts file json => Command.showFacts h c file json
  | .evaluate cases url output => Command.evaluate h c url cases output
  | .sweep preset data output o => do Command.sweep h (← overridden c o) preset data output

/-- Runs a command line with the configuration that it names, or that in the home folder. -/
def run (h : Host m) (home : String) (c : CommandLine) : Task m Unit := do
  c.invocation.run h (← Config.loadOrDefault h home c.config)

/-- How a program ends. -/
inductive Ending
  | done
  | failed (failure : Failure)
  | help
  | misuse
deriving DecidableEq, Repr

/-- The status that the program leaves behind. -/
def Ending.code : Ending → Nat
  | .done => 0
  | .failed _ => 1
  | .help => 0
  | .misuse => 2

/-- How the program is called. -/
def usage : String :=
  s!"Usage: {Program.name} [--config FILE] COMMAND [OPTIONS]\n\n" ++
  Text.join "\n" [
    "Commands:",
    "  compile   compile training records into rows",
    "  sweep     write a training plan for each point of a grid",
    "  serve     answer queries",
    "  decode    decode generated text into an action",
    "  facts     print the facts of the machine",
    "  evaluate  put the cases of a file to a server"]

/-- Does what the words after the name of the program ask for. -/
def execute (h : Host m) (home : String) (words : List String) : m Ending := do
  match ofWords words with
  | .error .help => return .help
  | .error .misuse => return .misuse
  | .error .version =>
    h.printLine s!"{Program.name} {Program.version}"
    return .done
  | .ok c =>
    match ← run h home c with
    | .ok () => return .done
    | .error failure => return .failed failure

end InstallAssistant.CommandLine
