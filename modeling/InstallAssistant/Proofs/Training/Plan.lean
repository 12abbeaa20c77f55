import InstallAssistant.Training.Plan
import InstallAssistant.Proofs.Config.Validate
import InstallAssistant.Proofs.Json.Value

/-!
# InstallAssistant.Proofs.Training.Plan

Plans that are read back.  A plan is written as an object of texts, of numbers that
fit their words (`Plan.Fits`) and of floats, each of which is `null` unless it is
finite.  A trainer reads it as a `Manifest`, in which every float must be a number, so
it can read the plan exactly if the four floats of it are finite
(`Plan.parse?_toJson`).

Validation sees to two of the floats, which are shares.  It lets a learning rate pass
that is no number or infinite, and any weight decay, so a plan for an accepted
configuration can be read exactly if those two are finite (`Plan.read_of_apply`).
-/

namespace InstallAssistant.Training

open Json (Reader Number)

/-! ## what a trainer reads -/

/-- A plan as it is read from its text, with the time when it was made. -/
structure Manifest (τ : Type) where
  runName : String
  baseModel : String
  trainFile : String
  evalFile : Option String
  trainExamples : Nat
  evalExamples : Nat
  maxLength : Nat
  hyperparameters : Hyperparameters
  loraDropout : Float
  targetModules : List String
  deviceBatchSize : Nat
  accumulationSteps : Nat
  warmupRatio : Float
  weightDecay : Float
  lrScheduler : String
  evalStrategy : String
  hasEval : Bool
  seed : Nat
  createdAt : τ

namespace Manifest

variable {τ : Type} (ofTime? : String → Option τ)

def names : List String :=
  ["run_name", "base_model", "train_file", "eval_file", "train_examples", "eval_examples",
    "max_length", "epochs", "learning_rate", "lora_r", "lora_alpha", "lora_dropout",
    "target_modules", "per_device_batch_size", "gradient_accumulation_steps", "warmup_ratio",
    "weight_decay", "lr_scheduler_type", "eval_strategy", "load_best_model_at_end", "seed",
    "created_at"]

/-- A whole number in 32 bits. -/
def word : Reader Nat := .natural (2 ^ 32)

/-- A whole number in 64 bits. -/
def long : Reader Nat := .natural (2 ^ 64)

/-- The text of a time. -/
def time : Reader τ
  | _, .string t => t.bind ofTime?
  | _, _ => none

def ofFields (f : Reader.Fields) : Option (Manifest τ) := do
  return {
    runName := ← f.required "run_name" .string
    baseModel := ← f.required "base_model" .string
    trainFile := ← f.required "train_file" .string
    evalFile := ← f.optional "eval_file" .string
    trainExamples := ← f.required "train_examples" long
    evalExamples := ← f.required "eval_examples" long
    maxLength := ← f.required "max_length" long
    hyperparameters := {
      epochs := ← f.required "epochs" word
      learningRate := ← f.required "learning_rate" .float
      loraR := ← f.required "lora_r" word
      loraAlpha := ← f.required "lora_alpha" word }
    loraDropout := ← f.required "lora_dropout" .float
    targetModules := ← f.required "target_modules" (.list .string)
    deviceBatchSize := ← f.required "per_device_batch_size" word
    accumulationSteps := ← f.required "gradient_accumulation_steps" word
    warmupRatio := ← f.required "warmup_ratio" .float
    weightDecay := ← f.required "weight_decay" .float
    lrScheduler := ← f.required "lr_scheduler_type" .string
    evalStrategy := ← f.required "eval_strategy" .string
    hasEval := ← f.required "load_best_model_at_end" .bool
    seed := ← f.required "seed" long
    createdAt := ← f.required "created_at" (time ofTime?) }

/-- A manifest is read from an object only.  Of its members, those that go to the hyperparameters
are looked for among all that no other field takes, so each of them must have a value. -/
def reader : Reader (Manifest τ)
  | room, .object members =>
    if ((Json.Tree.object members).value? room).isSome then
      Reader.record names false (ofFields ofTime?) room (.object members)
    else none
  | _, _ => none

end Manifest

/-! ## what is written -/

namespace Plan

variable (p : Plan)

/-- The floats of a plan, under the names of their fields. -/
def floats : List (String × Float) :=
  [("learning_rate", p.hyperparameters.learningRate), ("lora_dropout", p.settings.loraDropout),
    ("warmup_ratio", p.settings.warmupRatio), ("weight_decay", p.settings.weightDecay)]

/-- The numbers of a plan fit words of 32 bits and of 64 bits. -/
structure Fits : Prop where
  epochs : p.hyperparameters.epochs < 2 ^ 32
  loraR : p.hyperparameters.loraR < 2 ^ 32
  loraAlpha : p.hyperparameters.loraAlpha < 2 ^ 32
  batchSize : p.settings.batchSize < 2 ^ 32
  effectiveBatchSize : p.settings.effectiveBatchSize < 2 ^ 32
  trainExamples : p.data.trainExamples < 2 ^ 64
  evalExamples : p.data.evalExamples < 2 ^ 64
  maxLength : p.data.maxLength < 2 ^ 64

/-- What a trainer makes of a plan with finite floats. -/
def manifest {τ : Type} (t : τ) : Manifest τ where
  runName := p.runName
  baseModel := p.baseModel
  trainFile := p.data.trainFile
  evalFile := p.evalFile
  trainExamples := p.data.trainExamples
  evalExamples := p.data.evalExamples
  maxLength := p.data.maxLength
  hyperparameters := { p.hyperparameters with
    learningRate := Json.rereadFloat p.hyperparameters.learningRate }
  loraDropout := Json.rereadFloat p.settings.loraDropout
  targetModules := p.settings.targetModules
  deviceBatchSize := p.deviceBatchSize
  accumulationSteps := p.accumulationSteps
  warmupRatio := Json.rereadFloat p.settings.warmupRatio
  weightDecay := Json.rereadFloat p.settings.weightDecay
  lrScheduler := p.settings.lrScheduler
  evalStrategy := p.evalStrategy
  hasEval := p.hasEval
  seed := p.data.seed.toNat
  createdAt := t

variable {p}

theorem Fits.deviceBatchSize (h : p.Fits) : p.deviceBatchSize < 2 ^ 32 :=
  max_lt h.batchSize (by decide)

theorem Fits.accumulationSteps (h : p.Fits) : p.accumulationSteps < 2 ^ 32 :=
  max_lt (Nat.lt_of_le_of_lt (Nat.div_le_self _ _) h.effectiveBatchSize) (by decide)

variable (time : String)

variable (p) in
/-- The members of a plan, with the time when it was made. -/
def fields : List (String × Json) := p.members ++ [("created_at", .string time)]

theorem names_fields : (p.fields time).map Prod.fst = Manifest.names := rfl

theorem nodup_fields : ((p.fields time).map Prod.fst).Nodup := by
  rw [names_fields]
  decide

theorem member?_floats : ∀ field ∈ p.floats,
    (p.toJson time).member? field.1 = some (.ofFloat field.2) := by
  simp only [floats, List.forall_mem_cons]
  exact ⟨rfl, rfl, rfl, rfl, nofun⟩

theorem isValid_word {n : Nat} (h : n < 2 ^ 32) :
    (Json.nat n).allNumbers Number.isValid = true :=
  decide_eq_true (Nat.lt_trans h (by decide))

theorem isValid_long {n : Nat} (h : n < 2 ^ 64) :
    (Json.nat n).allNumbers Number.isValid = true :=
  decide_eq_true h

theorem isValid_toJson (h : p.Fits) : (p.toJson time).allNumbers Number.isValid = true := by
  simp only [toJson, members, List.cons_append, List.nil_append, Json.allNumbers,
    Json.allInMembers, Json.allNumbers_ofText?, Json.allNumbers_strings, Json.isValid_ofFloat,
    isValid_long h.trainExamples, isValid_long h.evalExamples, isValid_long h.maxLength,
    isValid_word h.epochs, isValid_word h.loraR, isValid_word h.loraAlpha,
    isValid_word h.deviceBatchSize, isValid_word h.accumulationSteps,
    isValid_long p.data.seed.toNat_lt, Bool.and_true]

theorem depth_toJson : (p.toJson time).depth = 2 := by
  simp only [toJson, members, List.cons_append, List.nil_append, Json.depth, Json.membersDepth,
    Json.depth_ofText?, Json.depth_strings, Json.depth_ofFloat, Json.nat]
  decide

/-! ## reading it back -/

section

variable {time} {τ : Type} {ofTime? : String → Option τ} {t : τ}

theorem ofFields_of_slots (h : p.Fits) (ht : ofTime? time = some t) {f : Reader.Fields}
    (hroom : f.room = 126)
    (hslots : ∀ field ∈ p.fields time, f.slot field.1 = .given (.ofJson field.2)) :
    Manifest.ofFields ofTime? f =
      if p.floats.all fun field => field.2.isFinite then some (p.manifest t) else none := by
  have hword : ∀ {n}, n < 2 ^ 32 → Manifest.word 126 (.ofJson (.nat n)) = some n :=
    fun hn => Reader.natural_ofJson (by decide) hn 126
  have hlong : ∀ {n}, n < 2 ^ 64 → Manifest.long 126 (.ofJson (.nat n)) = some n :=
    fun hn => Reader.natural_ofJson (by decide) hn 126
  have hmodules : Reader.list .string 126 (.ofJson (.strings p.settings.targetModules)) =
      some (p.settings.targetModules.map id) :=
    Reader.list_ofJson p.settings.targetModules fun _ _ => rfl
  have htime : Manifest.time ofTime? 126 (.string (some time)) = some t := ht
  simp only [fields, members, List.cons_append, List.nil_append, List.forall_mem_cons] at hslots
  simp only [Manifest.ofFields, Reader.Fields.required, Reader.Fields.optional,
    Reader.Fields.withDefault, hslots, hroom, Reader.optional_ofText?, hlong h.trainExamples,
    hlong h.evalExamples, hlong h.maxLength, hword h.epochs, hword h.loraR, hword h.loraAlpha,
    hword h.deviceBatchSize, hword h.accumulationSteps, hlong p.data.seed.toNat_lt, hmodules,
    Reader.float_ofFloat, Json.Tree.ofJson, Reader.string, Reader.bool, List.map_id, htime]
  simp only [floats, List.all_cons, List.all_nil, Bool.and_true]
  cases p.hyperparameters.learningRate.isFinite <;> cases p.settings.loraDropout.isFinite <;>
    cases p.settings.warmupRatio.isFinite <;> cases p.settings.weightDecay.isFinite <;> rfl

theorem reader_toJson (h : p.Fits) (ht : ofTime? time = some t) :
    Manifest.reader ofTime? Json.maxDepth (.ofJson (p.toJson time)) =
      if p.floats.all fun field => field.2.isFinite then some (p.manifest t) else none := by
  have hlegible := Json.legible_of_isValid (isValid_toJson time h)
  have hdepth : (p.toJson time).depth ≤ Json.maxDepth := by
    rw [depth_toJson]
    decide
  have hvalue := congrArg Option.isSome (Json.Tree.value?_ofJson _ hlegible hdepth)
  have hrecord := Reader.record_perm (.refl (p.fields time)) (nodup_fields time) false
    (Manifest.ofFields ofTime?) 126
  rw [names_fields] at hrecord
  rw [← ofFields_of_slots h ht rfl (Reader.slot_of_nodup (nodup_fields time) 126), ← hrecord]
  exact if_pos hvalue

/-- **A plan is read back exactly if its floats are finite.** -/
theorem parse?_toJson (h : p.Fits) (ht : ofTime? time = some t) :
    (Manifest.reader ofTime?).parse? (p.toJson time).pretty =
      if p.floats.all fun field => field.2.isFinite then some (p.manifest t) else none := by
  have hfinite := Json.finite_of_isValid (isValid_toJson time h)
  rw [Reader.parse?, Json.Tree.parse?_pretty hfinite, Option.bind_some, reader_toJson h ht]

end

/-! ## plans for accepted configurations -/

theorem null_iff {x : Float} : Json.ofFloat x = .null ↔ x.isFinite = false := by
  rw [Json.ofFloat_eq]
  cases x.isFinite <;> simp

theorem isFinite_of_share {x : Float} (h : 0.0 ≤ x ∧ x < 1.0) : x.isFinite = true :=
  Decimal.isFinite_of_between rfl rfl h.1 h.2

/-- The floats that validation sees to are finite. -/
theorem all_isFinite_iff {c : Config} (h : c.Valid) (hsettings : p.settings = c.training)
    (hhyper : p.hyperparameters = .ofSettings c.training) :
    (p.floats.all fun field => field.2.isFinite) = true ↔
      c.training.learningRate.isFinite = true ∧ c.training.weightDecay.isFinite = true := by
  simp only [floats, hsettings, hhyper, Hyperparameters.ofSettings, List.all_cons, List.all_nil,
    Bool.and_true, isFinite_of_share h.training.loraDropout,
    isFinite_of_share h.training.warmupRatio, Bool.true_and, Bool.and_eq_true]

/-- **What validation means for a plan.**  A configuration is accepted exactly if it meets the
conditions of `Config.Valid`: its shares and `top_p` are in their ranges, but its learning rate and
its temperature are positive, or not negative, only if they are numbers.  No float in a plan for an
accepted configuration is `null`, and a trainer can read the plan, exactly if the learning rate and
the weight decay are finite. -/
theorem read_of_apply {o : Overrides} {c c' : Config} :
    (o.apply c = .ok c' ↔ c' = c.override o ∧ c'.Valid) ∧
      (o.apply c = .ok c' → ∀ (baseModel : String) (data : Dataset) (time : String),
        let p : Plan := ⟨baseModel, c'.training, .ofSettings c'.training, data⟩
        let finite := c'.training.learningRate.isFinite && c'.training.weightDecay.isFinite
        ((∀ field ∈ p.floats, (p.toJson time).member? field.1 ≠ some .null) ↔ finite = true) ∧
          (p.Fits → ∀ {τ : Type} {ofTime? : String → Option τ} {t : τ}, ofTime? time = some t →
            (Manifest.reader ofTime?).parse? (p.toJson time).pretty =
              if finite then some (p.manifest t) else none)) := by
  refine ⟨Overrides.apply_eq_ok_iff, fun h baseModel data time => ?_⟩
  intro p finite
  have hvalid := (Overrides.apply_eq_ok_iff.mp h).2
  have hall : (p.floats.all fun field => field.2.isFinite) = finite :=
    Bool.eq_iff_iff.mpr ((all_isFinite_iff hvalid rfl rfl).trans Bool.and_eq_true_iff.symm)
  constructor
  · rw [← hall, List.all_eq_true]
    refine forall₂_congr fun field hfield => ?_
    rw [member?_floats time field hfield]
    simp [null_iff]
  · intro hfits τ ofTime? t ht
    rw [parse?_toJson hfits ht, hall]

/-- A small data set without examples to evaluate on. -/
def smallDataset : Dataset := ⟨"train.jsonl", none, 12, 0, 768, 42⟩

/-- A plan with the default settings is read back. -/
theorem read_of_apply_default :
    let p : Plan := ⟨"base", {}, .ofSettings {}, smallDataset⟩
    (Manifest.reader some).parse? (p.toJson "noon").pretty = some (p.manifest "noon") := by
  intro p
  have hvalid : ({} : Config).validate = .ok () := by decide +kernel
  have haccepted : Overrides.apply {} {} = .ok {} :=
    Overrides.apply_eq_ok_iff.mpr ⟨rfl, Config.validate_eq_ok_iff.mp hvalid⟩
  have hfits : p.Fits := by constructor <;> decide
  exact ((read_of_apply.2 haccepted "base" smallDataset "noon").2 hfits rfl).trans (if_pos rfl)

/-- A learning rate that is no number is accepted, and the plan cannot be read. -/
theorem not_read_of_nan :
    let c : Config := { training := { learningRate := 0.0 / 0.0 } }
    let p : Plan := ⟨"base", c.training, .ofSettings c.training, smallDataset⟩
    Overrides.apply {} c = .ok c ∧ ¬ 0.0 < c.training.learningRate ∧
      (p.toJson "noon").member? "learning_rate" = some .null ∧
      (Manifest.reader some).parse? (p.toJson "noon").pretty = none := by
  intro c p
  have hvalid : c.validate = .ok () := by decide +kernel
  have hfits : p.Fits := by constructor <;> decide
  have hnan : c.training.learningRate.isFinite = false := by decide +kernel
  refine ⟨Overrides.apply_eq_ok_iff.mpr ⟨rfl, Config.validate_eq_ok_iff.mp hvalid⟩, ?_, ?_, ?_⟩
  · decide +kernel
  · exact (member?_floats "noon" _ (List.mem_cons_self ..)).trans (congrArg some (null_iff.mpr hnan))
  · refine (parse?_toJson hfits rfl).trans (if_neg ?_)
    decide +kernel

end Plan

end InstallAssistant.Training
