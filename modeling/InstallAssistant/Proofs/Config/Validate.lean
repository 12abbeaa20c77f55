import InstallAssistant.Config.Basic
import InstallAssistant.Proofs.Decimal.Compare
import InstallAssistant.Proofs.Except

/-!
# InstallAssistant.Proofs.Config.Validate

What validation lets through.  Each section is accepted exactly if its settings meet
their conditions (`TrainingSettings.validate_eq_ok_iff` and the like), and so is a
whole configuration, also after overrides (`Config.validate_eq_ok_iff`,
`Overrides.apply_eq_ok_iff`).

The conditions on floats are of two kinds.  A share and `top_p` must lie in a range,
so they are finite.  The learning rate and the temperature must only not be on the
wrong side of zero, and then they may be no numbers at all; there is no condition on
the weight decay.
-/

namespace InstallAssistant

open Training (isShare)

theorem complain_eq_ok_iff {bad : Bool} {message : String} {u : Unit} :
    complain bad message = .ok u ↔ bad = false := by
  cases bad with
  | true => exact ⟨nofun, nofun⟩
  | false => exact ⟨fun _ => rfl, fun _ => rfl⟩

/-! ## conditions -/

structure ModelSettings.Valid (s : ModelSettings) : Prop where
  tokenizer : ∃ name, Text.nonBlank? s.tokenizer = some name
  padToken : s.padToken ≠ ""

structure CompileSettings.Valid (s : CompileSettings) : Prop where
  maxLength : 0 < s.maxLength
  evalFraction : 0.0 ≤ s.evalFraction ∧ s.evalFraction < 1.0

structure TrainingSettings.Valid (s : TrainingSettings) : Prop where
  epochs : 0 < s.epochs
  learningRate : s.learningRate.isNaN = true ∨ 0.0 < s.learningRate
  loraR : 0 < s.loraR
  loraAlpha : 0 < s.loraAlpha
  batchSize : 0 < s.batchSize ∧ s.batchSize ≤ s.effectiveBatchSize
  loraDropout : 0.0 ≤ s.loraDropout ∧ s.loraDropout < 1.0
  warmupRatio : 0.0 ≤ s.warmupRatio ∧ s.warmupRatio < 1.0

structure ServerSettings.Valid (s : ServerSettings) : Prop where
  address : ∃ a, Address.ofText? s.addr = some a
  backendUrl : s.backendUrl.startsWith "http://" = true ∨
    s.backendUrl.startsWith "https://" = true
  maxTokens : 0 < s.maxTokens
  temperature : s.temperature.isNaN = true ∨ 0.0 ≤ s.temperature
  topP : 0.0 < s.topP ∧ s.topP ≤ 1.0
  timeoutSecs : 0 < s.timeoutSecs

structure Config.Valid (c : Config) : Prop where
  model : c.model.Valid
  compile : c.compile.Valid
  training : c.training.Valid
  server : c.server.Valid
  facts : 0 < c.facts.timeoutSecs

/-! ## validation -/

theorem isShare_eq_true_iff {x : Float} : isShare x = true ↔ 0.0 ≤ x ∧ x < 1.0 := by
  rw [isShare, Bool.and_eq_true, decide_eq_true_eq, decide_eq_true_eq]

theorem not_le_zero_iff {x : Float} : ¬ x ≤ 0.0 ↔ x.isNaN = true ∨ 0.0 < x := by
  have hzero : (0.0 : Float).isNaN = false := rfl
  rw [Decimal.not_le_iff, hzero]
  simp

theorem not_lt_zero_iff32 {x : Float32} : ¬ x < 0.0 ↔ x.isNaN = true ∨ 0.0 ≤ x := by
  have hzero : (0.0 : Float32).isNaN = false := rfl
  rw [Decimal.not_lt_iff32, hzero]
  simp

section

variable {u : Unit}

theorem ModelSettings.validate_eq_ok_iff {s : ModelSettings} : s.validate = .ok u ↔ s.Valid := by
  simp only [validate, Result.bind_eq_ok_iff, complain_eq_ok_iff]
  constructor
  · rintro ⟨-, htokenizer, hpad⟩
    exact ⟨Option.isSome_iff_exists.mp (by simpa using htokenizer), by simpa using hpad⟩
  · rintro ⟨htokenizer, hpad⟩
    refine ⟨(), ?_, by simpa using hpad⟩
    simpa using Option.isSome_iff_exists.mpr htokenizer

theorem CompileSettings.validate_eq_ok_iff {s : CompileSettings} :
    s.validate = .ok u ↔ s.Valid := by
  simp only [validate, Result.bind_eq_ok_iff, complain_eq_ok_iff, Bool.not_eq_false',
    isShare_eq_true_iff, beq_eq_false_iff_ne]
  constructor
  · rintro ⟨-, hlength, hfraction⟩
    exact ⟨Nat.pos_of_ne_zero hlength, hfraction⟩
  · rintro ⟨hlength, hfraction⟩
    exact ⟨(), Nat.ne_of_gt hlength, hfraction⟩

theorem TrainingSettings.validate_eq_ok_iff {s : TrainingSettings} :
    s.validate = .ok u ↔ s.Valid := by
  simp only [validate, Result.bind_eq_ok_iff, complain_eq_ok_iff, Bool.or_eq_false_iff,
    Bool.not_eq_false', isShare_eq_true_iff, beq_eq_false_iff_ne, decide_eq_false_iff_not,
    not_le_zero_iff, Nat.not_lt]
  constructor
  · rintro ⟨-, hepochs, -, hrate, -, ⟨hr, halpha⟩, -, ⟨hbatch, heffective⟩, hdropout, hwarmup⟩
    exact ⟨Nat.pos_of_ne_zero hepochs, hrate, Nat.pos_of_ne_zero hr, Nat.pos_of_ne_zero halpha,
      ⟨Nat.pos_of_ne_zero hbatch, heffective⟩, hdropout, hwarmup⟩
  · rintro ⟨hepochs, hrate, hr, halpha, ⟨hbatch, heffective⟩, hdropout, hwarmup⟩
    exact ⟨(), Nat.ne_of_gt hepochs, (), hrate, (), ⟨Nat.ne_of_gt hr, Nat.ne_of_gt halpha⟩, (),
      ⟨Nat.ne_of_gt hbatch, heffective⟩, hdropout, hwarmup⟩

theorem ServerSettings.address_eq_ok_iff {s : ServerSettings} {a : Address} :
    s.address = .ok a ↔ Address.ofText? s.addr = some a := by
  rw [address]
  cases Address.ofText? s.addr <;> simp

theorem ServerSettings.validate_eq_ok_iff {s : ServerSettings} : s.validate = .ok u ↔ s.Valid := by
  simp only [validate, Result.bind_eq_ok_iff, complain_eq_ok_iff, address_eq_ok_iff,
    Bool.not_eq_false', Bool.or_eq_true, Bool.and_eq_true, beq_eq_false_iff_ne,
    decide_eq_false_iff_not, decide_eq_true_eq, not_lt_zero_iff32]
  constructor
  · rintro ⟨a, haddress, -, hurl, -, htokens, -, htemperature, -, htop, htimeout⟩
    exact ⟨⟨a, haddress⟩, hurl, Nat.pos_of_ne_zero htokens, htemperature, htop,
      Nat.pos_of_ne_zero htimeout⟩
  · rintro ⟨⟨a, haddress⟩, hurl, htokens, htemperature, htop, htimeout⟩
    exact ⟨a, haddress, (), hurl, (), Nat.ne_of_gt htokens, (), htemperature, (), htop,
      Nat.ne_of_gt htimeout⟩

/-- **A configuration is accepted exactly if its settings meet their conditions.** -/
theorem Config.validate_eq_ok_iff {c : Config} : c.validate = .ok u ↔ c.Valid := by
  simp only [validate, Result.bind_eq_ok_iff, ModelSettings.validate_eq_ok_iff,
    CompileSettings.validate_eq_ok_iff, TrainingSettings.validate_eq_ok_iff,
    ServerSettings.validate_eq_ok_iff, ProbeSettings.validate, complain_eq_ok_iff,
    beq_eq_false_iff_ne]
  constructor
  · rintro ⟨-, hmodel, -, hcompile, -, htraining, -, hserver, hfacts⟩
    exact ⟨hmodel, hcompile, htraining, hserver, Nat.pos_of_ne_zero hfacts⟩
  · rintro ⟨hmodel, hcompile, htraining, hserver, hfacts⟩
    exact ⟨(), hmodel, (), hcompile, (), htraining, (), hserver, Nat.ne_of_gt hfacts⟩

end

/-- **Overrides are accepted** exactly if the configuration meets its conditions after them. -/
theorem Overrides.apply_eq_ok_iff {o : Overrides} {c c' : Config} :
    o.apply c = .ok c' ↔ c' = c.override o ∧ c'.Valid := by
  rw [apply]
  cases h : (c.override o).validate with
  | error e =>
      constructor
      · nofun
      · rintro ⟨rfl, hvalid⟩
        rw [Config.validate_eq_ok_iff (u := ()) |>.mpr hvalid] at h
        cases h
  | ok u =>
      have hvalid := Config.validate_eq_ok_iff.mp h
      constructor
      · rintro ⟨⟩
        exact ⟨rfl, hvalid⟩
      · rintro ⟨rfl, -⟩
        rfl

end InstallAssistant
