import InstallAssistant.Training.Plan
import InstallAssistant.Proofs.Config.Validate
import Mathlib.Order.Bounds.Basic

/-!
# InstallAssistant.Proofs.Training.Accumulation

The batch size of a plan after gradient accumulation: the batches of a device times the
steps over which their gradients are added up.  Validation asks for a batch size between
one and the effective one, and not that it divides it, so what a plan for an accepted
configuration comes to is the greatest multiple of the batch size up to the effective one
(`Plan.accumulates_of_validate`), which is the effective batch size itself only if that
is a multiple (`Plan.Accumulates.eq_iff`).
-/

namespace InstallAssistant.Training.Plan

variable {p : Plan}

/-- The batch size after gradient accumulation. -/
def accumulatedBatchSize (p : Plan) : Nat := p.deviceBatchSize * p.accumulationSteps

/-- How a plan comes to its batch size, in whole batches of a device. -/
structure Accumulates (p : Plan) : Prop where
  device_pos : 0 < p.deviceBatchSize
  steps_pos : 0 < p.accumulationSteps
  greatest : IsGreatest {n | p.settings.batchSize ∣ n ∧ n ≤ p.settings.effectiveBatchSize}
    p.accumulatedBatchSize
  eq_iff : p.accumulatedBatchSize = p.settings.effectiveBatchSize ↔
    p.settings.batchSize ∣ p.settings.effectiveBatchSize
  /-- In words of 32 bits that hold the effective batch size, the product does not wrap around. -/
  word : p.settings.effectiveBatchSize < 2 ^ 32 →
    (p.deviceBatchSize.toUInt32 * p.accumulationSteps.toUInt32).toNat = p.accumulatedBatchSize

/-! ## settings that are valid -/

section

variable (h : p.settings.Valid)

include h

theorem deviceBatchSize_of_valid : p.deviceBatchSize = p.settings.batchSize :=
  Nat.max_eq_left h.batchSize.1

theorem accumulationSteps_of_valid :
    p.accumulationSteps = p.settings.effectiveBatchSize / p.settings.batchSize := by
  rw [accumulationSteps, deviceBatchSize_of_valid h]
  exact Nat.max_eq_left (Nat.div_pos h.batchSize.2 h.batchSize.1)

/-- What whole batches leave over is less than one of them. -/
theorem accumulatedBatchSize_add_mod :
    p.accumulatedBatchSize + p.settings.effectiveBatchSize % p.settings.batchSize =
      p.settings.effectiveBatchSize := by
  rw [accumulatedBatchSize, deviceBatchSize_of_valid h, accumulationSteps_of_valid h]
  exact Nat.div_add_mod _ _

theorem dvd_accumulatedBatchSize : p.settings.batchSize ∣ p.accumulatedBatchSize := by
  rw [accumulatedBatchSize, deviceBatchSize_of_valid h]
  exact Nat.dvd_mul_right _ _

theorem accumulatedBatchSize_le : p.accumulatedBatchSize ≤ p.settings.effectiveBatchSize :=
  Nat.le.intro (accumulatedBatchSize_add_mod h)

theorem le_accumulatedBatchSize {n : Nat} (hdvd : p.settings.batchSize ∣ n)
    (hle : n ≤ p.settings.effectiveBatchSize) : n ≤ p.accumulatedBatchSize := by
  obtain ⟨k, rfl⟩ := hdvd
  rw [accumulatedBatchSize, deviceBatchSize_of_valid h, accumulationSteps_of_valid h]
  refine Nat.mul_le_mul_left _ ((Nat.le_div_iff_mul_le h.batchSize.1).mpr ?_)
  rwa [Nat.mul_comm]

theorem accumulatedBatchSize_eq_iff :
    p.accumulatedBatchSize = p.settings.effectiveBatchSize ↔
      p.settings.batchSize ∣ p.settings.effectiveBatchSize := by
  constructor
  · intro heq
    rw [← heq]
    exact dvd_accumulatedBatchSize h
  · intro hdvd
    exact Nat.le_antisymm (accumulatedBatchSize_le h) (le_accumulatedBatchSize h hdvd le_rfl)

theorem toNat_mul_toUInt32 (hword : p.settings.effectiveBatchSize < 2 ^ 32) :
    (p.deviceBatchSize.toUInt32 * p.accumulationSteps.toUInt32).toNat =
      p.accumulatedBatchSize := by
  have hlt : p.accumulatedBatchSize < 2 ^ 32 :=
    Nat.lt_of_le_of_lt (accumulatedBatchSize_le h) hword
  rw [UInt32.toNat_mul, Nat.toUInt32_eq, Nat.toUInt32_eq, UInt32.toNat_ofNat', UInt32.toNat_ofNat',
    ← Nat.mul_mod]
  exact Nat.mod_eq_of_lt hlt

/-- **A plan comes to the greatest batch size** that is made of whole batches and is not above the
effective one. -/
theorem accumulates_of_valid : p.Accumulates where
  device_pos := Nat.lt_of_lt_of_le Nat.one_pos (Nat.le_max_right _ _)
  steps_pos := Nat.lt_of_lt_of_le Nat.one_pos (Nat.le_max_right _ _)
  greatest := ⟨⟨dvd_accumulatedBatchSize h, accumulatedBatchSize_le h⟩,
    fun _ hn => le_accumulatedBatchSize h hn.1 hn.2⟩
  eq_iff := accumulatedBatchSize_eq_iff h
  word := toNat_mul_toUInt32 h

end

/-! ## accepted configurations -/

/-- **What validation means for the batch size of a plan**, whatever the hyperparameters and the
data are. -/
theorem accumulates_of_validate {c : Config} (h : c.validate = .ok ()) (baseModel : String)
    (hyperparameters : Hyperparameters) (data : Dataset) :
    (Plan.mk baseModel c.training hyperparameters data).Accumulates :=
  accumulates_of_valid (Config.validate_eq_ok_iff.mp h).training

/-- Twelve examples to train on, and none to evaluate on. -/
def dozen : Dataset := ⟨"train.jsonl", none, 12, 0, 768, 42⟩

/-- Two batches of four make eight. -/
theorem accumulates_of_validate_four :
    let c : Config := { training := { batchSize := 4, effectiveBatchSize := 8 } }
    c.validate = .ok () ∧
      (Plan.mk "base" c.training (.ofSettings c.training) dozen).Accumulates := by
  intro c
  have hvalid : c.validate = .ok () := by decide +kernel
  exact ⟨hvalid, accumulates_of_validate hvalid "base" (.ofSettings c.training) dozen⟩

/-- With batches of three, an accepted plan for an effective batch size of eight comes to six. -/
theorem accumulated_three_ne_eight :
    let c : Config := { training := { batchSize := 3, effectiveBatchSize := 8 } }
    let p : Plan := ⟨"base", c.training, .ofSettings c.training, dozen⟩
    c.validate = .ok () ∧ p.deviceBatchSize = 3 ∧ p.accumulationSteps = 2 ∧
      p.accumulatedBatchSize ≠ c.training.effectiveBatchSize := by
  intro c p
  have hvalid : c.validate = .ok () := by decide +kernel
  exact ⟨hvalid, rfl, by decide, by decide⟩

end InstallAssistant.Training.Plan
