import InstallAssistant.Config.Basic
import InstallAssistant.Evaluation.Run

/-!
# InstallAssistant.Command.Evaluate

Puts the cases of a file to a server, shows what the answers come to, and writes a
report.
-/

namespace InstallAssistant.Command

open Evaluation

variable {m : Type → Type} [Monad m]

/-- The given address of a server, or that of the configuration. -/
def serverUrl (c : Config) (url : Option String) : String := url.getD s!"http://{c.server.addr}"

def evaluate (h : Host m) (c : Config) (url : Option String) (casesFile output : String) :
    Task m Unit := do
  let server := serverUrl c url
  let cases ← loadCases h casesFile
  let results ← (run h server cases : m (List Scored))
  for line in (Summary.ofResults results).lines do
    h.printLine line
  let report : Report := ⟨server, casesFile, ← h.now, results⟩
  report.save h output

end InstallAssistant.Command
