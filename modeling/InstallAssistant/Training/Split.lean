import InstallAssistant.Decimal.Style
import InstallAssistant.Failure
import InstallAssistant.Training.Row
import InstallAssistant.Training.Shuffle

/-!
# InstallAssistant.Training.Split

Examples are shuffled by a seed; a share of them is held out for evaluation, and
the others are for training, in batches that hold their rows as columns.
-/

namespace InstallAssistant.Training

structure Split (α : Type) where
  train : List α
  eval : List α
  /-- Where the examples stood before. -/
  trainIndices : List Nat
  evalIndices : List Nat
deriving DecidableEq, Repr

/-- Whether a share is at least nothing and less than everything. -/
def isShare (x : Float) : Bool := 0.0 ≤ x && x < 1.0

/-- How many of `n` examples are held out: the share rounded up, but one at least, and one less
than all at most.  A rounding error of the product does not count as another example. -/
def evalSize (n : Nat) (share : Float) : Nat :=
  if share ≤ 0.0 || n < 2 then 0
  else
    let wanted := (Float.ofNat n * share - 1e-9).ceil.toUInt64.toNat
    max 1 (min wanted (n - 1))

/-- The elements at some positions. -/
def pick {α : Type} (xs : List α) (indices : List Nat) : List α := indices.filterMap (xs[·]?)

def split {α : Type} (xs : List α) (share : Float) (seed : UInt64) : Except Failure (Split α) :=
  if !isShare share then
    let given := Decimal.plain.writeFloat share
    .error ⟨s!"eval_fraction must be in [0, 1), got {given}", []⟩
  else
    let order := shuffle xs.length seed
    let size := evalSize xs.length share
    let evalIndices := order.take size
    let trainIndices := order.drop size
    .ok ⟨pick xs trainIndices, pick xs evalIndices, trainIndices, evalIndices⟩

def Split.hasEval {α : Type} (s : Split α) : Bool := !s.eval.isEmpty

/-! ## batches -/

/-- Runs of `size + 1` elements; the last may be shorter. -/
def runs {α : Type} (size : Nat) (xs : List α) : List (List α) :=
  match xs with
  | [] => []
  | x :: rest => (x :: rest.take size) :: runs size (rest.drop size)
termination_by xs.length
decreasing_by simp only [List.length_drop, List.length_cons]; omega

/-- Rows as columns. -/
structure Batch where
  inputIds : List (List UInt32)
  masks : List (List UInt8)
  labels : List (List Int)
deriving DecidableEq, Repr

namespace Batch

def stack (rows : List Row) : Batch :=
  ⟨rows.map Row.inputIds, rows.map Row.mask, rows.map Row.labels⟩

/-- Where a batch is wanted, rows are stacked. -/
instance : Coe (List Row) Batch := ⟨stack⟩

/-- How many rows were stacked. -/
def length (b : Batch) : Nat := b.inputIds.length

def isEmpty (b : Batch) : Bool := b.inputIds.isEmpty

end Batch

/-- The training rows in batches; a batch size of zero counts as one. -/
def Split.batches (s : Split Row) (size : Nat) : List Batch :=
  (runs (max size 1 - 1) s.train).map .stack

def batchJson (b : Batch) : Json :=
  .object [
    ("input_ids", .array (b.inputIds.map fun ids => .array (ids.map fun id => .nat id.toNat))),
    ("attention_mask", .array (b.masks.map fun mask => .array (mask.map fun m => .nat m.toNat))),
    ("labels", .array (b.labels.map fun labels => .array (labels.map .int)))]

end InstallAssistant.Training
