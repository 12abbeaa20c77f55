import InstallAssistant.Config.Basic

/-!
# InstallAssistant.Training.Plan

Plans for a trainer: the compiled data, the hyperparameters, and everything else
that a run needs.  A run is evaluated after each epoch if examples are held out,
and not at all otherwise.
-/

namespace InstallAssistant.Training

/-! ## hyperparameters -/

/-- What differs between the runs of a sweep. -/
structure Hyperparameters where
  epochs : Nat
  learningRate : Float
  loraR : Nat
  loraAlpha : Nat
deriving BEq

namespace Hyperparameters

def ofSettings (s : TrainingSettings) : Hyperparameters :=
  ⟨s.epochs, s.learningRate, s.loraR, s.loraAlpha⟩

/-- The name of a run, which is also that of its folder. -/
def runName (h : Hyperparameters) : String :=
  let rate := Decimal.scientific.writeFloat h.learningRate
  s!"r{h.loraR}_a{h.loraAlpha}_lr{rate}_e{h.epochs}"

end Hyperparameters

/-! ## plans -/

/-- The compiled data that a plan is for. -/
structure Dataset where
  trainFile : String
  evalFile : Option String
  trainExamples : Nat
  evalExamples : Nat
  maxLength : Nat
  seed : UInt64
deriving DecidableEq, Repr

structure Plan where
  baseModel : String
  settings : TrainingSettings
  hyperparameters : Hyperparameters
  data : Dataset

namespace Plan

def runName (p : Plan) : String := p.hyperparameters.runName

/-- Whether examples are held out. -/
def hasEval (p : Plan) : Bool := 0 < p.data.evalExamples

/-- The file of the examples that are held out, if there are any. -/
def evalFile (p : Plan) : Option String := if p.hasEval then p.data.evalFile else none

/-- How many examples go through the model at a time. -/
def deviceBatchSize (p : Plan) : Nat := max p.settings.batchSize 1

/-- Over how many batches gradients are accumulated. -/
def accumulationSteps (p : Plan) : Nat :=
  max (p.settings.effectiveBatchSize / p.deviceBatchSize) 1

def evalStrategy (p : Plan) : String := if p.hasEval then "epoch" else "no"

/-- The plan without the time when it was made. -/
def members (p : Plan) : List (String × Json) :=
  [("run_name", .string p.runName), ("base_model", .string p.baseModel),
    ("train_file", .string p.data.trainFile), ("eval_file", .ofText? p.evalFile),
    ("train_examples", .nat p.data.trainExamples), ("eval_examples", .nat p.data.evalExamples),
    ("max_length", .nat p.data.maxLength), ("epochs", .nat p.hyperparameters.epochs),
    ("learning_rate", .ofFloat p.hyperparameters.learningRate),
    ("lora_r", .nat p.hyperparameters.loraR), ("lora_alpha", .nat p.hyperparameters.loraAlpha),
    ("lora_dropout", .ofFloat p.settings.loraDropout),
    ("target_modules", .strings p.settings.targetModules),
    ("per_device_batch_size", .nat p.deviceBatchSize),
    ("gradient_accumulation_steps", .nat p.accumulationSteps),
    ("warmup_ratio", .ofFloat p.settings.warmupRatio),
    ("weight_decay", .ofFloat p.settings.weightDecay),
    ("lr_scheduler_type", .string p.settings.lrScheduler),
    ("eval_strategy", .string p.evalStrategy), ("load_best_model_at_end", .bool p.hasEval),
    ("seed", .nat p.data.seed.toNat)]

/-- The plan as it is written at a time. -/
def toJson (p : Plan) (time : String) : Json :=
  .object (p.members ++ [("created_at", .string time)])

end Plan

end InstallAssistant.Training
