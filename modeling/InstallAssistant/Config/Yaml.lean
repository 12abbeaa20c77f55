import InstallAssistant.Config.Basic
import InstallAssistant.Host.Basic
import InstallAssistant.Yaml.Printer
import InstallAssistant.Yaml.Reader

/-!
# InstallAssistant.Config.Yaml

The configuration as YAML.  A file may leave out any setting and any section; it
must not have others.
-/

namespace InstallAssistant

open Yaml

/-! ## reading -/

def word32 : Nat := UInt32.size

def word64 : Nat := UInt64.size

def ModelSettings.reader : Reader ModelSettings :=
  .record ["tokenizer", "base_model", "pad_token", "add_special_tokens", "tools_file"]
    fun fields => do
      let d : ModelSettings := {}
      return {
        tokenizer := ← fields.withDefault "tokenizer" d.tokenizer .string
        baseModel := ← fields.withDefault "base_model" d.baseModel .string
        padToken := ← fields.withDefault "pad_token" d.padToken .string
        addSpecialTokens := ← fields.withDefault "add_special_tokens" d.addSpecialTokens .bool
        toolsFile := ← fields.withDefault "tools_file" none (.optional .string) }

def CompileSettings.reader : Reader CompileSettings :=
  .record ["max_length", "eval_fraction", "seed"] fun fields => do
    let d : CompileSettings := {}
    return {
      maxLength := ← fields.withDefault "max_length" d.maxLength (.natural word64)
      evalFraction := ← fields.withDefault "eval_fraction" d.evalFraction .float
      seed := .ofNat (← fields.withDefault "seed" d.seed.toNat (.natural word64)) }

def TrainingSettings.reader : Reader TrainingSettings :=
  .record ["epochs", "learning_rate", "lora_r", "lora_alpha", "lora_dropout", "target_modules",
      "batch_size", "effective_batch_size", "warmup_ratio", "weight_decay", "lr_scheduler"]
    fun fields => do
      let d : TrainingSettings := {}
      return {
        epochs := ← fields.withDefault "epochs" d.epochs (.natural word32)
        learningRate := ← fields.withDefault "learning_rate" d.learningRate .float
        loraR := ← fields.withDefault "lora_r" d.loraR (.natural word32)
        loraAlpha := ← fields.withDefault "lora_alpha" d.loraAlpha (.natural word32)
        loraDropout := ← fields.withDefault "lora_dropout" d.loraDropout .float
        targetModules := ← fields.withDefault "target_modules" d.targetModules (.list .string)
        batchSize := ← fields.withDefault "batch_size" d.batchSize (.natural word32)
        effectiveBatchSize :=
          ← fields.withDefault "effective_batch_size" d.effectiveBatchSize (.natural word32)
        warmupRatio := ← fields.withDefault "warmup_ratio" d.warmupRatio .float
        weightDecay := ← fields.withDefault "weight_decay" d.weightDecay .float
        lrScheduler := ← fields.withDefault "lr_scheduler" d.lrScheduler .string }

def ServerSettings.reader : Reader ServerSettings :=
  .record ["addr", "backend_url", "max_tokens", "temperature", "top_p", "timeout_secs",
      "facts_file"]
    fun fields => do
      let d : ServerSettings := {}
      let single : Reader Float32 := fun v => (Reader.float v).map Float.toFloat32
      return {
        addr := ← fields.withDefault "addr" d.addr .string
        backendUrl := ← fields.withDefault "backend_url" d.backendUrl .string
        maxTokens := ← fields.withDefault "max_tokens" d.maxTokens (.natural word64)
        temperature := ← fields.withDefault "temperature" d.temperature single
        topP := ← fields.withDefault "top_p" d.topP single
        timeoutSecs := ← fields.withDefault "timeout_secs" d.timeoutSecs (.natural word64)
        factsFile := ← fields.withDefault "facts_file" none (.optional .string) }

def ProbeSettings.reader : Reader ProbeSettings :=
  .record ["ping_host", "probe_timeout_secs"] fun fields => do
    let d : ProbeSettings := {}
    return {
      pingHost := ← fields.withDefault "ping_host" d.pingHost .string
      timeoutSecs := ← fields.withDefault "probe_timeout_secs" d.timeoutSecs (.natural word64) }

namespace Config

def reader : Reader Config :=
  .record ["model", "compile", "training", "server", "facts"] fun fields => do
    return {
      model := ← fields.withDefault "model" {} ModelSettings.reader
      compile := ← fields.withDefault "compile" {} CompileSettings.reader
      training := ← fields.withDefault "training" {} TrainingSettings.reader
      server := ← fields.withDefault "server" {} ServerSettings.reader
      facts := ← fields.withDefault "facts" {} ProbeSettings.reader }

/-- The configuration that a text spells, valid or not. -/
def ofText? (text : String) : Option Config := (Node.ofText? text).bind reader

/-- The valid configuration that a text spells. -/
def ofText (text : String) : Except Failure Config :=
  match ofText? text with
  | some c => c.validate.map fun _ => c
  | none => .error ⟨"failed to parse config YAML", [Failure.yaml]⟩

/-! ## writing -/

def natWord (n : Nat) : Yaml.Value := .word (toString n)

def boolWord (b : Bool) : Yaml.Value := .word (if b then "true" else "false")

def floatWord (x : Float) : Yaml.Value := .word (Decimal.settings.writeFloat x)

def float32Word (x : Float32) : Yaml.Value := .word (Decimal.settings.writeFloat32 x)

/-- A text, or the word for nothing. -/
def textOrNull : Option String → Yaml.Value
  | some s => .text s
  | none => .word "null"

def toYaml (c : Config) : List (String × Yaml.Value) :=
  [("model", .record <|
      [("tokenizer", .text c.model.tokenizer), ("base_model", .text c.model.baseModel),
        ("pad_token", .text c.model.padToken),
        ("add_special_tokens", boolWord c.model.addSpecialTokens)] ++
      match c.model.toolsFile with
      | some path => [("tools_file", .text path)]
      | none => []),
    ("compile", .record
      [("max_length", natWord c.compile.maxLength),
        ("eval_fraction", floatWord c.compile.evalFraction),
        ("seed", natWord c.compile.seed.toNat)]),
    ("training", .record
      [("epochs", natWord c.training.epochs),
        ("learning_rate", floatWord c.training.learningRate),
        ("lora_r", natWord c.training.loraR), ("lora_alpha", natWord c.training.loraAlpha),
        ("lora_dropout", floatWord c.training.loraDropout),
        ("target_modules", .list c.training.targetModules),
        ("batch_size", natWord c.training.batchSize),
        ("effective_batch_size", natWord c.training.effectiveBatchSize),
        ("warmup_ratio", floatWord c.training.warmupRatio),
        ("weight_decay", floatWord c.training.weightDecay),
        ("lr_scheduler", .text c.training.lrScheduler)]),
    ("server", .record
      [("addr", .text c.server.addr), ("backend_url", .text c.server.backendUrl),
        ("max_tokens", natWord c.server.maxTokens),
        ("temperature", float32Word c.server.temperature), ("top_p", float32Word c.server.topP),
        ("timeout_secs", natWord c.server.timeoutSecs),
        ("facts_file", textOrNull c.server.factsFile)]),
    ("facts", .record
      [("ping_host", .text c.facts.pingHost),
        ("probe_timeout_secs", natWord c.facts.timeoutSecs)])]

def text (c : Config) : String := Yaml.printRecord c.toYaml

/-! ## files -/

/-- The folder that holds the default file: the given one, or else one in the user's home. -/
def homeFolder (given : Option String) (userHome : String) : String :=
  given.getD (Host.Path.join userHome ".installer-llm")

variable {m : Type → Type} [Monad m]

/-- The configuration in a file. -/
def load (h : Host m) (path : String) : Task m Config := do
  let text ← h.needText s!"failed to read config file: {path}" path
  match ofText text with
  | .ok c => return c
  | .error f => throw (f.within s!"invalid config file: {path}")

/-- The configuration in a file; without one, that in the default file in `home`, or the defaults
when there is no such file. -/
def loadOrDefault (h : Host m) (home : String) (path : Option String) : Task m Config := do
  match path with
  | some path => load h path
  | none =>
    let path := Host.Path.join home "config.yaml"
    if ← h.exists? path then load h path else return {}

def save (h : Host m) (c : Config) (path : String) : Task m Unit :=
  h.writeText s!"failed to write config file: {path}" path c.text

end Config

end InstallAssistant
