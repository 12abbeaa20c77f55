import InstallAssistant.Training.Plan

/-!
# InstallAssistant.Training.Sweep

Grids of hyperparameters.  A grid has every combination of some values, and after
them, for each combination, the variant whose alpha is twice its rank, unless the
grid has that already.
-/

namespace InstallAssistant.Training

inductive Preset
  | quick
  | full
deriving DecidableEq, Repr

def Preset.ofName? : String → Option Preset
  | "quick" => some .quick
  | "full" => some .full
  | _ => none

/-- The values that are combined. -/
structure SearchSpace where
  learningRates : List Float
  epochs : List Nat
  ranks : List Nat
  alphas : List Nat

def Preset.space : Preset → SearchSpace
  | .quick => ⟨[2e-4], [1, 2], [8, 16], [16, 32]⟩
  | .full => ⟨[1e-4, 2e-4, 5e-4], [1, 2, 3], [8, 16, 32], [16, 32]⟩

/-- All combinations; the alpha changes fastest, and the learning rate slowest. -/
def SearchSpace.combinations (s : SearchSpace) : List Hyperparameters :=
  s.learningRates.flatMap fun learningRate =>
    s.epochs.flatMap fun epochs =>
      s.ranks.flatMap fun loraR =>
        s.alphas.map fun loraAlpha => { epochs, learningRate, loraR, loraAlpha }

/-- The variant whose alpha is twice its rank. -/
def Hyperparameters.doubled (h : Hyperparameters) : Hyperparameters :=
  { h with loraAlpha := 2 * h.loraR }

/-- A grid with one more variant at its end, unless it has that already. -/
def addNew (grid : List Hyperparameters) (h : Hyperparameters) : List Hyperparameters :=
  if grid.contains h then grid else grid ++ [h]

def Preset.grid (p : Preset) : List Hyperparameters :=
  let combinations := p.space.combinations
  (combinations.map Hyperparameters.doubled).foldl addNew combinations

end InstallAssistant.Training
