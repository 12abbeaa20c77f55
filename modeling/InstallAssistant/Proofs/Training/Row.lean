import InstallAssistant.Training.Row
import InstallAssistant.Proofs.Json.Reader

/-!
# InstallAssistant.Proofs.Training.Row

Which tokens of a row count: those behind the prompt that are not padding, as far
as the row reaches (`targetIds_ofTokens`).  What a row holds at each position
(`Row.represents_ofTokens`).  And what is read from the line of a row
(`Row.parse?_compact`).
-/

namespace InstallAssistant.Training

/-! ## the tokens that count -/

theorem label_succ (promptLength position : Nat) (pad id : UInt32) :
    label (promptLength + 1) pad (position + 1) id = label promptLength pad position id := by
  simp only [label, Nat.add_lt_add_iff_right]

theorem label_eq_ignored_iff {promptLength position : Nat} {pad id : UInt32} :
    label promptLength pad position id = ignored ↔ position < promptLength ∨ id = pad := by
  unfold label
  by_cases h : position < promptLength ∨ id = pad
  · simp [h]
  · simp only [h, if_false, iff_false, ignored]
    omega

/-- **The labels that count** are the ids behind the prompt that are not padding. -/
theorem filter_labels (promptLength : Nat) (pad : UInt32) (ids : List UInt32) :
    ((ids.mapIdx (label promptLength pad)).filter (· != ignored)).map
        (fun l => UInt32.ofNat l.toNat) =
      (ids.drop promptLength).filter (· != pad) := by
  induction ids generalizing promptLength with
  | nil => simp
  | cons id ids ih =>
      cases promptLength with
      | zero =>
          have htail : (fun i => label 0 pad (i + 1)) = label 0 pad := by
            funext i x
            simp only [label, Nat.not_lt_zero]
          have ih := ih 0
          rw [List.drop_zero] at ih
          rw [List.mapIdx_cons, htail, List.drop_zero]
          by_cases hid : id = pad
          · have hhead : label 0 pad 0 id = ignored := label_eq_ignored_iff.mpr (.inr hid)
            rw [List.filter_cons_of_neg (by simp [hhead]), ih,
              List.filter_cons_of_neg (by simp [hid])]
          · have hhead : label 0 pad 0 id = id.toNat := by simp [label, hid]
            have hcounts : label 0 pad 0 id ≠ ignored := by simp [label_eq_ignored_iff, hid]
            rw [List.filter_cons_of_pos (by simpa using hcounts), List.map_cons, ih, hhead,
              List.filter_cons_of_pos (by simpa using hid), Int.toNat_natCast, UInt32.ofNat_toNat]
      | succ promptLength =>
          have htail :
              (fun i => label (promptLength + 1) pad (i + 1)) = label promptLength pad := by
            funext i x
            exact label_succ promptLength i pad x
          have hhead : label (promptLength + 1) pad 0 id = ignored :=
            label_eq_ignored_iff.mpr (.inl (Nat.succ_pos _))
          rw [List.mapIdx_cons, htail, List.filter_cons_of_neg (by simp [hhead]), ih]
          rfl

theorem targetIds_ofTokens (tokens : List UInt32) (promptLength maxLength : Nat) (pad : UInt32) :
    (Row.ofTokens tokens promptLength maxLength pad).targetIds =
      ((tokens.take maxLength).drop promptLength).filter (· != pad) := by
  have htake : (tokens.mapIdx (label promptLength pad)).take maxLength =
      (tokens.take maxLength).mapIdx (label promptLength pad) := by
    apply List.ext_getElem?
    intro i
    by_cases hi : i < maxLength
    · simp [hi]
    · have hle := Nat.le_of_not_lt hi
      rw [List.getElem?_take_eq_none hle, List.getElem?_mapIdx, List.getElem?_take_eq_none hle]
      rfl
  have hpadding : ∀ n, (List.replicate n ignored).filter (· != ignored) = [] := by
    intro n
    simp
  have hlabels : (Row.ofTokens tokens promptLength maxLength pad).labels =
      fit maxLength ignored (tokens.mapIdx (label promptLength pad)) := rfl
  rw [Row.targetIds, hlabels, fit, htake, List.filter_append, hpadding, List.append_nil,
    filter_labels]

/-! ## columns -/

theorem fit_eq {α : Type} (n : Nat) (x : α) (xs : List α) :
    fit n x xs = xs.take (min xs.length n) ++ List.replicate (n - min xs.length n) x := by
  have hrest : n - min xs.length n = n - xs.length := by omega
  rw [fit, hrest, Nat.min_comm, ← List.take_eq_take_min]

theorem getElem?_fit {α : Type} {n i : Nat} (hi : i < n) (x : α) (xs : List α) :
    (fit n x xs)[i]? = some (xs[i]?.getD x) := by
  rw [fit]
  by_cases hlength : i < xs.length
  · rw [List.getElem?_append_left (by simp; omega), List.getElem?_take_of_lt hi]
    simp [hlength]
  · rw [List.getElem?_append_right (by simp; omega), List.getElem?_replicate_of_lt (by simp; omega)]
    simp [hlength]

namespace Row

/-- A row of `maxLength` positions for the ids of a text, of which the first `promptLength` are
the prompt: it has the ids that fit and then padding, and a label only for an id that stands behind
the prompt and is not padding. -/
structure Represents (row : Row) (ids : List UInt32) (promptLength maxLength : Nat)
    (pad : UInt32) : Prop where
  realLength : row.realLength = min ids.length maxLength
  promptLength_eq : row.promptLength = promptLength
  promptLength_lt : row.promptLength < row.realLength
  inputIds : row.inputIds =
    ids.take row.realLength ++ List.replicate (maxLength - row.realLength) pad
  mask : row.mask =
    List.replicate row.realLength 1 ++ List.replicate (maxLength - row.realLength) 0
  /-- What does not count. -/
  label_eq_ignored : ∀ i < maxLength,
    i < row.promptLength ∨ row.realLength ≤ i ∨ ids[i]? = some pad → row.labels[i]? = some ignored
  /-- What counts. -/
  label_eq_id : ∀ i id, row.promptLength ≤ i → i < row.realLength → ids[i]? = some id → id ≠ pad →
    row.labels[i]? = some (id.toNat : Int)
  lengths : row.inputIds.length = maxLength ∧ row.mask.length = maxLength ∧
    row.labels.length = maxLength

section

variable {ids : List UInt32} {promptLength maxLength : Nat} (pad : UInt32)

theorem mask_ofTokens : (ofTokens ids promptLength maxLength pad).mask =
    List.replicate (min ids.length maxLength) 1 ++
      List.replicate (maxLength - min ids.length maxLength) 0 := by
  have hmask : (ofTokens ids promptLength maxLength pad).mask =
      fit maxLength 0 (ids.map fun _ => 1) := rfl
  rw [hmask, fit_eq, List.map_const', List.length_replicate, List.take_replicate,
    Nat.min_eq_left (Nat.min_le_left _ _)]

theorem realLength_ofTokens :
    (ofTokens ids promptLength maxLength pad).realLength = min ids.length maxLength := by
  rw [realLength, mask_ofTokens, List.countP_append, List.countP_replicate, List.countP_replicate]
  simp

theorem labels_ofTokens {i : Nat} (hi : i < maxLength) :
    (ofTokens ids promptLength maxLength pad).labels[i]? =
      some ((ids[i]?.map (label promptLength pad i)).getD ignored) := by
  rw [ofTokens, getElem?_fit hi, List.getElem?_mapIdx]

/-- What a row has for a token that it reaches. -/
theorem getElem?_ofTokens {i : Nat} {id : UInt32} (hi : i < maxLength) (hid : ids[i]? = some id) :
    (ofTokens ids promptLength maxLength pad).inputIds[i]? = some id ∧
      (ofTokens ids promptLength maxLength pad).labels[i]? =
        some (if promptLength ≤ i ∧ pad ≠ id then (id.toNat : Int) else ignored) := by
  constructor
  · rw [ofTokens, getElem?_fit hi, hid, Option.getD_some]
  · rw [labels_ofTokens pad hi, hid, Option.map_some, Option.getD_some, label]
    by_cases hprompt : i < promptLength
    · simp [hprompt, Nat.not_le.mpr hprompt]
    · simp [hprompt, Nat.le_of_not_lt hprompt, eq_comm]

/-- **What is in a row**, if the prompt leaves room for more. -/
theorem represents_ofTokens (h : promptLength < min ids.length maxLength) :
    (ofTokens ids promptLength maxLength pad).Represents ids promptLength maxLength pad where
  realLength := realLength_ofTokens pad
  promptLength_eq := rfl
  promptLength_lt := by
    rw [realLength_ofTokens]
    exact h
  inputIds := by
    rw [realLength_ofTokens]
    exact fit_eq maxLength pad ids
  mask := by
    rw [realLength_ofTokens]
    exact mask_ofTokens pad
  label_eq_ignored := by
    intro i hi hout
    cases hid : ids[i]? with
    | none => rw [labels_ofTokens pad hi, hid, Option.map_none, Option.getD_none]
    | some id =>
        have hlength : i < ids.length := (List.getElem?_eq_some_iff.mp hid).1
        have hreal : ¬ min ids.length maxLength ≤ i := by omega
        rw [realLength_ofTokens, hid, Option.some_inj] at hout
        have hbehind : ¬ (promptLength ≤ i ∧ pad ≠ id) := fun ⟨hprompt, hpad⟩ =>
          (hout.imp_right (·.resolve_left hreal)).elim (Nat.not_lt.mpr hprompt) (hpad ·.symm)
        rw [(getElem?_ofTokens pad hi hid).2, if_neg hbehind]
  label_eq_id := by
    intro i id hprompt hreal hid hpad
    rw [realLength_ofTokens] at hreal
    rw [(getElem?_ofTokens pad (by omega) hid).2, if_pos ⟨hprompt, hpad.symm⟩]
  lengths := lengths_ofTokens ids promptLength maxLength pad

end

/-- A row begins with its prompt. -/
theorem Represents.take_inputIds {row : Row} {promptIds ids : List UInt32} {maxLength : Nat}
    {pad : UInt32} (h : row.Represents ids promptIds.length maxLength pad)
    (hprompt : promptIds <+: ids) : row.inputIds.take row.promptLength = promptIds := by
  have hlt := h.promptLength_lt
  have hreal := h.realLength
  have hlength : row.promptLength ≤ (ids.take row.realLength).length := by
    rw [List.length_take]
    omega
  rw [h.inputIds, List.take_append_of_le_length hlength, List.take_take,
    Nat.min_eq_left (Nat.le_of_lt hlt), h.promptLength_eq]
  exact (List.prefix_iff_eq_take.mp hprompt).symm

/-! ## rows as they are written -/

/-- Labels of 64 bits, of which one is the sign. -/
def LabelsFit (r : Row) : Prop :=
  ∀ l ∈ r.labels, -Json.Literal.signBound ≤ l ∧ l < Json.Literal.signBound

theorem finite_toJson (r : Row) : r.toJson.finite = true := by
  have hids := Json.allInItems_map (p := Json.Number.isFinite)
    (f := fun id => Json.nat id.toNat) r.inputIds fun _ _ => rfl
  have hmask := Json.allInItems_map (p := Json.Number.isFinite)
    (f := fun b => Json.nat b.toNat) r.mask fun _ _ => rfl
  have hlabels := Json.allInItems_map r.labels fun l _ => Json.finite_int l
  simp only [toJson, Json.allNumbers, Json.allInMembers, hids, hmask, hlabels, Bool.and_true]

theorem reader_toJson {r : Row} (h : r.LabelsFit) (room : Nat) :
    reader (room + 2) (.ofJson r.toJson) = some { r with promptLength := 0 } := by
  have hids := Json.Reader.list_ofJson (r := .natural UInt32.size) (g := UInt32.toNat) r.inputIds
    fun id _ => Json.Reader.natural_ofJson (by decide) id.toNat_lt room
  have hmask := Json.Reader.list_ofJson (r := .natural UInt8.size) (g := UInt8.toNat) r.mask
    fun b _ => Json.Reader.natural_ofJson (by decide) b.toNat_lt room
  have hlabels := Json.Reader.list_ofJson (g := id) r.labels
    fun l hl => Json.Reader.integer_ofJson (h l hl).1 (h l hl).2 room
  rw [Json.Tree.ofJson] at hids hmask hlabels
  have hwords : UInt32.ofNat ∘ UInt32.toNat = id := funext fun _ => UInt32.ofNat_toNat
  have hbytes : UInt8.ofNat ∘ UInt8.toNat = id := funext fun _ => UInt8.ofNat_toNat
  simp [toJson, reader, Json.Reader.record, Json.Tree.ofJson, Json.Tree.ofMembers,
    Json.Reader.memberSlots?, Json.Reader.Fields.required, Json.Reader.Fields.slot, hids, hmask,
    hlabels, hwords, hbytes]

/-- **Rows are read back** from their lines, but for where the prompt ends. -/
theorem parse?_compact {r : Row} (h : r.LabelsFit) :
    reader.parse? r.toJson.compact = some { r with promptLength := 0 } := by
  rw [Json.Reader.parse?_compact reader r.finite_toJson]
  exact reader_toJson h _

/-- The labels of tokens are ids, which have 32 bits, or do not count. -/
theorem labelsFit_ofTokens (tokens : List UInt32) (promptLength maxLength : Nat) (pad : UInt32) :
    (ofTokens tokens promptLength maxLength pad).LabelsFit := by
  intro l hl
  simp only [ofTokens, fit, List.mem_append] at hl
  rcases hl with hl | hl
  · obtain ⟨i, hi, rfl⟩ := List.mem_mapIdx.mp (List.mem_of_mem_take hl)
    rw [label]
    split
    · decide
    · have hid := (tokens[i]).toNat_lt
      simp only [Json.Literal.signBound]
      omega
  · rw [List.eq_of_mem_replicate hl]
    decide

end Row

end InstallAssistant.Training
