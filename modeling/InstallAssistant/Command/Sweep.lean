import InstallAssistant.Command.Compile
import InstallAssistant.Program
import InstallAssistant.Training.Sweep

/-!
# InstallAssistant.Command.Sweep

Writes a plan for each point of a grid, all of them for one data set that has been
compiled before.
-/

namespace InstallAssistant.Command

open Training

variable {m : Type → Type} [Monad m]

/-- How many examples a file of rows has: one on each line that is not blank. -/
def exampleCount (text : String) : Nat :=
  (Text.lines text.toList).countP fun line => !Text.isBlankText line

def countExamples (h : Host m) (path : String) : Task m Nat := do
  return exampleCount (← h.needText s!"failed to read {path}" path)

/-- The data set in a folder, which must have examples for training. -/
def compiledDataset (h : Host m) (c : Config) (folder : String) : Task m Dataset := do
  let train := Host.Path.join folder trainFile
  let eval := Host.Path.join folder evalFile
  unless ← h.exists? train do
    throw ⟨s!"{train} not found; run `{Program.name} compile` first", []⟩
  let trainExamples ← countExamples h train
  if trainExamples = 0 then throw ⟨s!"{train} is empty", []⟩
  let evalExamples ← if ← h.exists? eval then countExamples h eval else pure 0
  return dataset c folder trainExamples evalExamples

/-- Writes a plan into a folder that is named after its run. -/
def writePlan (h : Host m) (output : String) (p : Plan) : Task m Unit := do
  let folder := Host.Path.join output p.runName
  h.needFolders folder
  writeJson h (Host.Path.join folder planFile) (p.toJson (← h.now))

/-- Writes the plans of a grid, and the list of their names. -/
def sweep (h : Host m) (c : Config) (preset : Preset) (data output : String) : Task m Unit := do
  let dataset ← compiledDataset h c data
  let plans : List Plan := preset.grid.map fun hyperparameters =>
    { baseModel := c.model.baseModel, settings := c.training, hyperparameters, data := dataset }
  plans.forM (writePlan h output)
  writeJson h (Host.Path.join output "sweep.json") (.strings (plans.map Plan.runName))
  h.printLine s!"{plans.length} training plans -> {output}"

end InstallAssistant.Command
