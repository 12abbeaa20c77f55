import InstallAssistant.Config.Address
import InstallAssistant.Decimal.Style
import InstallAssistant.Failure
import InstallAssistant.Text.Blank
import InstallAssistant.Training.Split

/-!
# InstallAssistant.Config.Basic

The configuration, in five sections; every setting has a default.
`Config.validate` states what the settings must satisfy beyond their types, and
names the first that does not.
-/

namespace InstallAssistant

/-! ## sections -/

/-- The model and its encoder. -/
structure ModelSettings where
  /-- `bytes`, `o200k`, or the path of a vocabulary. -/
  tokenizer : String := "o200k"
  baseModel : String := "vendor/models/SmolLM3-3B"
  padToken : String := "<|endoftext|>"
  /-- Whether special tokens go around texts, in training and in answering. -/
  addSpecialTokens : Bool := false
  /-- A file of tool definitions instead of the built-in tool. -/
  toolsFile : Option String := none
deriving BEq

/-- How examples become rows, and how many are held out. -/
structure CompileSettings where
  maxLength : Nat := 768
  evalFraction : Float := 0.1
  seed : UInt64 := 42
deriving BEq

/-- What goes into training plans. -/
structure TrainingSettings where
  epochs : Nat := 5
  learningRate : Float := 1e-4
  loraR : Nat := 32
  loraAlpha : Nat := 64
  loraDropout : Float := 0.05
  targetModules : List String :=
    ["q_proj", "k_proj", "v_proj", "o_proj", "gate_proj", "up_proj", "down_proj"]
  batchSize : Nat := 1
  /-- The batch size after gradients have been accumulated. -/
  effectiveBatchSize : Nat := 8
  warmupRatio : Float := 0.1
  weightDecay : Float := 0.01
  lrScheduler : String := "cosine"
deriving BEq

/-- The query server and how it generates. -/
structure ServerSettings where
  addr : String := "127.0.0.1:8765"
  backendUrl : String := "http://127.0.0.1:8080"
  maxTokens : Nat := 256
  temperature : Float32 := 0.3
  topP : Float32 := 0.9
  timeoutSecs : Nat := 120
  /-- A file of facts instead of those of the machine. -/
  factsFile : Option String := none
deriving BEq

/-- How facts are gathered. -/
structure ProbeSettings where
  pingHost : String := "archlinux.org"
  timeoutSecs : Nat := 5
deriving BEq

structure Config where
  model : ModelSettings := {}
  compile : CompileSettings := {}
  training : TrainingSettings := {}
  server : ServerSettings := {}
  facts : ProbeSettings := {}
deriving BEq

/-! ## validation -/

/-- The address to listen on. -/
def ServerSettings.address (s : ServerSettings) : Except Failure Address :=
  match Address.ofText? s.addr with
  | some a => .ok a
  | none => .error ⟨s!"config: invalid server.addr `{s.addr}`", ["invalid socket address syntax"]⟩

/-- A complaint about a setting when a condition holds. -/
def complain (bad : Bool) (message : String) : Except Failure Unit :=
  if bad then .error ⟨s!"config: {message}", []⟩ else .ok ()

def ModelSettings.validate (s : ModelSettings) : Except Failure Unit := do
  complain (Text.nonBlank? s.tokenizer).isNone "model.tokenizer must not be empty"
  complain s.padToken.isEmpty "model.pad_token must not be empty"

def CompileSettings.validate (s : CompileSettings) : Except Failure Unit := do
  complain (s.maxLength == 0) "compile.max_length must be greater than zero"
  let given := Decimal.plain.writeFloat s.evalFraction
  complain (!Training.isShare s.evalFraction)
    s!"compile.eval_fraction must be in [0, 1), got {given}"

def TrainingSettings.validate (s : TrainingSettings) : Except Failure Unit := do
  complain (s.epochs == 0) "training.epochs must be at least 1"
  complain (s.learningRate ≤ 0.0) "training.learning_rate must be positive"
  complain (s.loraR == 0 || s.loraAlpha == 0)
    "training.lora_r and training.lora_alpha must be positive"
  let range := s!"1..=effective_batch_size ({s.effectiveBatchSize})"
  complain (s.batchSize == 0 || decide (s.effectiveBatchSize < s.batchSize))
    s!"training.batch_size ({s.batchSize}) must be in {range}"
  complain (!Training.isShare s.loraDropout || !Training.isShare s.warmupRatio)
    "training.lora_dropout and training.warmup_ratio must be in [0, 1)"

def ServerSettings.validate (s : ServerSettings) : Except Failure Unit := do
  let _ ← s.address
  complain (!(s.backendUrl.startsWith "http://" || s.backendUrl.startsWith "https://"))
    "server.backend_url must be an http(s) URL"
  complain (s.maxTokens == 0) "server.max_tokens must be greater than zero"
  complain (s.temperature < 0.0) "server.temperature must not be negative"
  let given := Decimal.plain.writeFloat32 s.topP
  complain (!(0.0 < s.topP && s.topP ≤ 1.0)) s!"server.top_p must be in (0, 1], got {given}"
  complain (s.timeoutSecs == 0) "server.timeout_secs=0 would fail every request"

def ProbeSettings.validate (s : ProbeSettings) : Except Failure Unit :=
  complain (s.timeoutSecs == 0) "facts.probe_timeout_secs must be greater than zero"

def Config.validate (c : Config) : Except Failure Unit := do
  c.model.validate
  c.compile.validate
  c.training.validate
  c.server.validate
  c.facts.validate

/-! ## overrides -/

/-- Settings from the command line, which take precedence over the file. -/
structure Overrides where
  model : Option String := none
  maxLength : Option Nat := none
  evalFraction : Option Float := none
  seed : Option UInt64 := none
  epochs : Option Nat := none
  learningRate : Option Float := none
  loraR : Option Nat := none
  loraAlpha : Option Nat := none
  batchSize : Option Nat := none
  toolsJson : Option String := none

/-- A configuration with overrides. -/
def Config.override (c : Config) (o : Overrides) : Config :=
  { c with
    model := { c.model with
      tokenizer := o.model.getD c.model.tokenizer
      toolsFile := o.toolsJson.or c.model.toolsFile }
    compile := { c.compile with
      maxLength := o.maxLength.getD c.compile.maxLength
      evalFraction := o.evalFraction.getD c.compile.evalFraction
      seed := o.seed.getD c.compile.seed }
    training := { c.training with
      epochs := o.epochs.getD c.training.epochs
      learningRate := o.learningRate.getD c.training.learningRate
      loraR := o.loraR.getD c.training.loraR
      loraAlpha := o.loraAlpha.getD c.training.loraAlpha
      batchSize := o.batchSize.getD c.training.batchSize } }

/-- A configuration with overrides, which must be valid after them. -/
def Overrides.apply (o : Overrides) (c : Config) : Except Failure Config :=
  (c.override o).validate.map fun _ => c.override o

end InstallAssistant
