import InstallAssistant.Command.Setup
import InstallAssistant.Training.Compiler
import InstallAssistant.Training.Plan
import InstallAssistant.Training.Split

/-!
# InstallAssistant.Command.Compile

Compiles a data set: the rows for training and for evaluation, what became of the
records, and the plan for a trainer, each in a file of the output folder.  Nothing
is written before all rows are there.
-/

namespace InstallAssistant.Command

open Training

variable {m : Type → Type} [Monad m]

/-! ## files of a data set -/

def trainFile : String := "train.jsonl"

def evalFile : String := "eval.jsonl"

def statsFile : String := "compile_stats.json"

def planFile : String := "training_plan.json"

/-- Rows as lines of JSON. -/
def rowLines (rows : List Row) : String :=
  String.join (rows.map fun r => r.toJson.compact ++ "\n")

def writeRows (h : Host m) (path : String) (rows : List Row) : Task m Unit :=
  h.writeText s!"failed to create {path}" path (rowLines rows)

/-! ## compiling -/

/-- A data set that has been compiled. -/
structure Compiled where
  encoderName : String
  loaded : Loaded
  stats : Stats
  split : Split Row

/-- What became of the records, as it is written. -/
def Compiled.statsJson (d : Compiled) (c : Config) : Json :=
  .object (d.stats.members ++
    [("files", .nat d.loaded.files.length), ("records_loaded", .nat d.loaded.examples.length),
      ("records_skipped", .nat d.loaded.skipped), ("train_examples", .nat d.split.train.length),
      ("eval_examples", .nat d.split.eval.length),
      ("eval_fraction", .ofFloat c.compile.evalFraction), ("seed", .nat c.compile.seed.toNat),
      ("tokenizer", .string d.encoderName)])

/-- The data set in a folder, as plans refer to it. -/
def dataset (c : Config) (folder : String) (trainExamples evalExamples : Nat) : Dataset where
  trainFile := Host.Path.join folder trainFile
  evalFile := some (Host.Path.join folder evalFile)
  trainExamples
  evalExamples
  maxLength := c.compile.maxLength
  seed := c.compile.seed

def Compiled.plan (d : Compiled) (c : Config) (folder : String) : Plan where
  baseModel := c.model.baseModel
  settings := c.training
  hyperparameters := .ofSettings c.training
  data := dataset c folder d.split.train.length d.split.eval.length

/-- The reasons for which examples were dropped, in one line. -/
def tallyText (t : Tally) : String :=
  let counts := t.map fun (name, k) => "\"" ++ name ++ "\": " ++ toString k
  "\x7b" ++ Text.join ", " counts ++ "\x7d"

/-- Loads and compiles the records under a path, and splits the rows.  The encoder is asked for once
there are records. -/
def compileData (h : Host m) (c : Config) (encoder : Task m Encoder) (data : String) :
    Task m Compiled := do
  let loaded ← Training.load h data
  if loaded.examples.isEmpty then
    throw ⟨s!"no usable training records under {data} ({loaded.skipped} skipped)", []⟩
  let e ← encoder
  let p ← prompter h c
  let compiler ← ExceptT.mk (pure (Compiler.make p e c.compile.maxLength c.model.addSpecialTokens))
  let (rows, stats) := compiler.compileAll loaded.examples
  if rows.isEmpty then
    throw ⟨s!"every record was dropped during compilation: {tallyText stats.dropped}", []⟩
  let split ← ExceptT.mk (pure (split rows c.compile.evalFraction c.compile.seed))
  return ⟨e.name, loaded, stats, split⟩

/-- Compiles the records under a path into a folder, with an encoder that is asked for. -/
def compileWith (h : Host m) (c : Config) (encoder : Task m Encoder) (data output : String) :
    Task m Unit := do
  let d ← compileData h c encoder data
  h.needFolders output
  writeRows h (Host.Path.join output trainFile) d.split.train
  writeRows h (Host.Path.join output evalFile) d.split.eval
  writeJson h (Host.Path.join output statsFile) (d.statsJson c)
  writeJson h (Host.Path.join output planFile) ((d.plan c output).toJson (← h.now))
  let counts := s!"{d.split.train.length} train, {d.split.eval.length} eval"
  h.printLine s!"compiled {d.stats.compiled} of {d.stats.total} records: {counts} -> {output}"
  unless d.split.hasEval do
    h.printLine s!"no eval split; evaluation disabled in {planFile}"

/-- Compiles the records under a path into a folder, with the encoder of the configuration. -/
def compile (h : Host m) (c : Config) (data output : String) : Task m Unit :=
  compileWith h c (encoder h c) data output

end InstallAssistant.Command
