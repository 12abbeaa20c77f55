import InstallAssistant.CommandLine.Flag
import InstallAssistant.Config.Basic
import InstallAssistant.Training.Sweep

/-!
# InstallAssistant.CommandLine.Invocation

What a command line asks for: a command with its settings, and a configuration
file for it, which may be named before or after the command.
-/

namespace InstallAssistant.CommandLine

/-- A command to run. -/
inductive Invocation
  | compile (data output : String) (overrides : Overrides)
  | serve (addr backend factsFile : Option String) (overrides : Overrides)
  | decode (file : Option String)
  | facts (file : Option String) (json : Bool)
  | evaluate (cases : String) (server : Option String) (output : String)
  | sweep (preset : Training.Preset) (data output : String) (overrides : Overrides)

/-! ## values -/

/-- A whole number of 32 bits with an optional sign. -/
def word32? (s : String) : Option Nat :=
  match Decimal.signed? s.toList with
  | some n => if 0 ≤ n ∧ n < UInt32.size then some n.toNat else none
  | none => none

/-- A whole number of 64 bits with an optional plus sign. -/
def word64? (s : String) : Option Nat := Decimal.natural? UInt64.size s.toList

def pathFlag (name : String) : Flag := { name, effect := .value fun v => !v.isEmpty }

def textFlag (name : String) : Flag := { name, effect := .value fun _ => true }

def word32Flag (name : String) : Flag := { name, effect := .value fun v => (word32? v).isSome }

def word64Flag (name : String) : Flag := { name, effect := .value fun v => (word64? v).isSome }

def floatFlag (name : String) : Flag :=
  { name, effect := .value fun v => (Decimal.readFloat? v).isSome }

/-! ## flags -/

/-- The flags that every command has. -/
def commonFlags : List Flag :=
  [{ pathFlag "config" with letter := some 'c' },
    { name := "help", letter := some 'h', effect := .halt .help }]

/-- The flags that stand before the command. -/
def leadingFlags : List Flag :=
  { name := "version", letter := some 'V', effect := .halt .version } :: commonFlags

def dataFlag : Flag := { pathFlag "data" with otherName := some "data-dir" }

/-- The flags for settings of the model and of training. -/
def hyperFlags : List Flag :=
  [textFlag "model", word64Flag "max-length", word32Flag "epochs", floatFlag "learning-rate",
    word32Flag "lora-r", word32Flag "lora-alpha", word32Flag "batch-size", pathFlag "tools-json"]

def presetFlag : Flag :=
  { name := "preset", effect := .value fun v => (Training.Preset.ofName? v).isSome }

/-- The commands by name. -/
inductive CommandName
  | compile
  | serve
  | decode
  | facts
  | evaluate
  | sweep
deriving DecidableEq, Repr

namespace CommandName

def ofName? : String → Option CommandName
  | "compile" => some .compile
  | "serve" => some .serve
  | "decode" => some .decode
  | "facts" => some .facts
  | "evaluate" => some .evaluate
  | "sweep" => some .sweep
  | _ => none

/-- The flags of a command alone. -/
def flags : CommandName → List Flag
  | .compile =>
    [dataFlag, pathFlag "output", floatFlag "eval-fraction", word64Flag "seed"] ++ hyperFlags
  | .serve =>
    [textFlag "addr", textFlag "backend", pathFlag "facts-file", textFlag "model",
      pathFlag "tools-json"]
  | .decode => [pathFlag "file"]
  | .facts => [pathFlag "facts-file", { name := "json", effect := .switch }]
  | .evaluate => [pathFlag "cases", textFlag "server", pathFlag "output"]
  | .sweep => [presetFlag, dataFlag, pathFlag "output"] ++ hyperFlags

end CommandName

/-! ## invocations -/

/-- The overrides among the flags that were given. -/
def overrides (g : Given) : Overrides where
  model := g.lookup "model"
  maxLength := (g.lookup "max-length").bind word64?
  evalFraction := (g.lookup "eval-fraction").bind Decimal.readFloat?
  seed := ((g.lookup "seed").bind word64?).map UInt64.ofNat
  epochs := (g.lookup "epochs").bind word32?
  learningRate := (g.lookup "learning-rate").bind Decimal.readFloat?
  loraR := (g.lookup "lora-r").bind word32?
  loraAlpha := (g.lookup "lora-alpha").bind word32?
  batchSize := (g.lookup "batch-size").bind word32?
  toolsJson := g.lookup "tools-json"

def CommandName.invocation (c : CommandName) (g : Given) : Except Halt Invocation :=
  let text (name default : String) : String := (g.lookup name).getD default
  match c with
  | .compile =>
    match g.lookup "data" with
    | some data => .ok (.compile data (text "output" "compiled") (overrides g))
    | none => .error .misuse
  | .serve =>
    .ok (.serve (g.lookup "addr") (g.lookup "backend") (g.lookup "facts-file") (overrides g))
  | .decode => .ok (.decode (g.lookup "file"))
  | .facts => .ok (.facts (g.lookup "facts-file") (g.has "json"))
  | .evaluate =>
    .ok (.evaluate (text "cases" "templates/eval_cases.jsonl") (g.lookup "server")
      (text "output" "eval_report.json"))
  | .sweep =>
    let preset := ((g.lookup "preset").bind Training.Preset.ofName?).getD .quick
    .ok (.sweep preset (text "data" "compiled") (text "output" "sweep") (overrides g))

end CommandLine

/-! ## command lines -/

/-- What a command line asks for. -/
structure CommandLine where
  config : Option String
  invocation : CommandLine.Invocation

namespace CommandLine

/-- Help on a command, or on all of them. -/
def helpOn (words : List String) : Halt :=
  match words with
  | [] => .help
  | [word] => if (CommandName.ofName? word).isSome || word == "help" then .help else .misuse
  | _ => .misuse

/-- Reads the words after the name of the program. -/
def ofWords (words : List String) : Except Halt CommandLine := do
  let (leading, words) ← scan leadingFlags words
  match words with
  | [] => throw .misuse
  | "help" :: words => throw (helpOn words)
  | name :: words =>
    match CommandName.ofName? name with
    | none => throw .misuse
    | some command =>
      let (given, rest) ← scan (commonFlags ++ command.flags) words
      unless rest.isEmpty do throw .misuse
      let invocation ← command.invocation given
      return ⟨(given.lookup "config").or (leading.lookup "config"), invocation⟩

end CommandLine

end InstallAssistant
