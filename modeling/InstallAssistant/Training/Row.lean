import InstallAssistant.Json.Reader
import InstallAssistant.Json.Printer

/-!
# InstallAssistant.Training.Row

Rows of training data: token ids, a mask that tells tokens from padding, and the
labels that a trainer compares with, all of one length.  A label is the token id
where the loss counts, and `ignored` elsewhere: over the prompt, over the padding
and over tokens that look like padding.
-/

namespace InstallAssistant.Training

/-- The label of what does not count. -/
def ignored : Int := -100

structure Row where
  inputIds : List UInt32
  mask : List UInt8
  labels : List Int
  /-- How many tokens belong to the prompt. -/
  promptLength : Nat
deriving DecidableEq, Repr

/-- The first `n` elements, filled up with `x` to `n`. -/
def fit {α : Type} (n : Nat) (x : α) (xs : List α) : List α :=
  xs.take n ++ List.replicate (n - xs.length) x

/-- The label of a token at a position. -/
def label (promptLength : Nat) (pad : UInt32) (position : Nat) (id : UInt32) : Int :=
  if position < promptLength ∨ id = pad then ignored else id.toNat

namespace Row

/-- The row of some tokens, of which the first `promptLength` are the prompt. -/
def ofTokens (tokens : List UInt32) (promptLength maxLength : Nat) (pad : UInt32) : Row :=
  { inputIds := fit maxLength pad tokens
    mask := fit maxLength 0 (tokens.map fun _ => 1)
    labels := fit maxLength ignored (tokens.mapIdx (label promptLength pad))
    promptLength }

/-- How many positions hold tokens. -/
def realLength (r : Row) : Nat := r.mask.countP (· == 1)

/-- The ids that the loss counts, in order. -/
def targetIds (r : Row) : List UInt32 :=
  (r.labels.filter (· != ignored)).map fun l => UInt32.ofNat l.toNat

/-! ## JSON -/

def toJson (r : Row) : Json :=
  .object [("input_ids", .array (r.inputIds.map fun id => .nat id.toNat)),
    ("attention_mask", .array (r.mask.map fun b => .nat b.toNat)),
    ("labels", .array (r.labels.map .int))]

/-- Reads a row from a line of a data file, which does not tell where the prompt ends. -/
def reader : Json.Reader Row :=
  .record ["input_ids", "attention_mask", "labels"] false fun fields => do
    let ids ← fields.required "input_ids" (.list (.natural UInt32.size))
    let mask ← fields.required "attention_mask" (.list (.natural UInt8.size))
    let labels ← fields.required "labels" (.list .integer)
    return ⟨ids.map UInt32.ofNat, mask.map UInt8.ofNat, labels, 0⟩

end Row

/-! ## laws -/

theorem length_fit {α : Type} (n : Nat) (x : α) (xs : List α) : (fit n x xs).length = n := by
  simp [fit]; omega

theorem Row.lengths_ofTokens (tokens : List UInt32) (p n : Nat) (pad : UInt32) :
    (ofTokens tokens p n pad).inputIds.length = n ∧ (ofTokens tokens p n pad).mask.length = n ∧
      (ofTokens tokens p n pad).labels.length = n := by
  simp [ofTokens, length_fit]

end InstallAssistant.Training
