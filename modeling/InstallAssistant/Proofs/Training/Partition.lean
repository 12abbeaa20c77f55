import InstallAssistant.Proofs.Decimal.Compare
import InstallAssistant.Proofs.Except
import InstallAssistant.Proofs.Training.Split

/-!
# InstallAssistant.Proofs.Training.Partition

What a split does with any list, share and seed (`partitioning_split`).  There is a
split exactly if the share is a number from zero up to one (`isShare_eq_false_iff`).
Its indices are the positions of the list in another order, and its parts are what
stands there; taking the elements out of their slots, one after the other, gives
the same parts and leaves no slot full (`takeOut_takeOut`).  Where the elements go
depends on their number only.  The batches of a part are its runs of one length, each
stacked into columns, and column by column they hold the part (`Split.hold_batches`).
-/

namespace InstallAssistant.Training

variable {α β : Type}

/-! ## shares -/

theorem isShare_eq_false_iff {share : Float} :
    isShare share = false ↔ share.isNaN = true ∨ share < 0.0 ∨ 1.0 ≤ share := by
  have hzero : (0.0 : Float).isNaN = false := by decide +kernel
  have hone : (1.0 : Float).isNaN = false := by decide +kernel
  rw [isShare, Bool.and_eq_false_iff, decide_eq_false_iff_not, decide_eq_false_iff_not,
    Decimal.not_le_iff, Decimal.not_lt_iff, hzero, hone]
  simp only [Bool.false_eq_true, false_or]
  tauto

/-- For a share that is accepted, nothing is held out exactly if it is zero or there are not two
examples. -/
theorem evalSize_eq_zero_iff {n : Nat} {share : Float} (h : isShare share = true) :
    evalSize n share = 0 ↔ (share == 0.0) = true ∨ n < 2 := by
  have hle : (0.0 : Float) ≤ share := by
    rw [isShare, Bool.and_eq_true, decide_eq_true_eq] at h
    exact h.1
  have hzero : (share == 0.0) = true ↔ share ≤ 0.0 := by simp [Decimal.beq_iff, hle]
  rw [hzero, evalSize]
  split
  · next hnone => simpa using hnone
  · next hsome =>
    simp only [Bool.or_eq_true, decide_eq_true_eq] at hsome
    simp only [hsome, iff_false]
    omega

/-! ## swaps -/

namespace Shuffle

/-- A word is scaled, or passed over. -/
theorem choose_succ (range attempts : Nat) (s : Stream) :
    choose range (attempts + 1) s = (s.word.1.toNat * range / 2 ^ 32, s.word.2) ∨
      choose range (attempts + 1) s = choose range attempts s.word.2 :=
  ite_eq_or_eq _ _ _

theorem choose_lt {range : Nat} (h : 0 < range) (attempts : Nat) (s : Stream) :
    (choose range attempts s).1 < range := by
  induction attempts generalizing s with
  | zero => exact h
  | succ attempts ih =>
      have hword := s.word.1.toNat_lt
      rcases choose_succ range attempts s with hscaled | hpassed
      · rw [hscaled]
        exact Nat.div_lt_of_lt_mul (Nat.mul_lt_mul_of_lt_of_le hword (Nat.le_refl _) h)
      · rw [hpassed]
        exact ih _

theorem swapsFrom_inRange (i : Nat) (s : Stream) :
    ∀ swap ∈ swapsFrom i s, swap.2 ≤ swap.1 ∧ 0 < swap.1 ∧ swap.1 ≤ i := by
  induction i generalizing s with
  | zero => simp [swapsFrom]
  | succ i ih =>
      have hlt := choose_lt (Nat.succ_pos (i + 1)) maxAttempts s
      rw [swapsFrom, List.forall_mem_cons]
      refine ⟨⟨Nat.le_of_lt_succ hlt, Nat.succ_pos i, Nat.le_refl _⟩, fun swap hswap => ?_⟩
      obtain ⟨hle, hpos, hi⟩ := ih _ swap hswap
      exact ⟨hle, hpos, Nat.le_succ_of_le hi⟩

/-- **Every position is swapped with itself or one before it.** -/
theorem swaps_inRange (n : Nat) (seed : UInt64) :
    ∀ swap ∈ swaps n seed, swap.2 ≤ swap.1 ∧ swap.1 < n := by
  intro swap hswap
  obtain ⟨hle, hpos, hi⟩ := swapsFrom_inRange _ _ swap hswap
  exact ⟨hle, by omega⟩

end Shuffle

/-! ## slots -/

/-- The elements at some positions, each taken out of its slot, and the slots that are left.  An
empty slot gives nothing. -/
def takeOut : List Nat → List (Option α) → List α × List (Option α)
  | [], slots => ([], slots)
  | i :: is, slots =>
    let (taken, left) := takeOut is (slots.set i none)
    (slots[i]?.join.toList ++ taken, left)

/-- Slots of which some have been emptied. -/
def emptied (is : List Nat) (slots : List (Option α)) : List (Option α) :=
  is.foldl (fun slots i => slots.set i none) slots

theorem getElem?_emptied (is : List Nat) (slots : List (Option α)) (j : Nat) :
    (emptied is slots)[j]? = if j ∈ is then slots[j]?.map fun _ => none else slots[j]? := by
  induction is generalizing slots with
  | nil => simp [emptied]
  | cons i is ih =>
      have hstep : emptied (i :: is) slots = emptied is (slots.set i none) := rfl
      rw [hstep, ih, List.getElem?_set]
      by_cases hij : i = j
      · subst hij
        by_cases hi : i < slots.length
        · simp [hi]
        · simp [hi]
      · simp [hij, Ne.symm hij]

theorem emptied_eq_replicate {is : List Nat} {slots : List (Option α)}
    (h : ∀ j < slots.length, j ∈ is) :
    emptied is slots = List.replicate slots.length none := by
  refine List.ext_getElem? fun j => ?_
  rw [getElem?_emptied, List.getElem?_replicate]
  by_cases hj : j < slots.length
  · simp [hj, h j hj]
  · simp [hj]

/-- Different positions find their slots as they were. -/
theorem takeOut_eq {is : List Nat} (h : is.Nodup) (slots : List (Option α)) :
    takeOut is slots = (is.filterMap (slots[·]?.join), emptied is slots) := by
  induction is generalizing slots with
  | nil => rfl
  | cons i is ih =>
      obtain ⟨hi, his⟩ := List.nodup_cons.mp h
      have hrest : is.filterMap ((slots.set i none)[·]?.join) = is.filterMap (slots[·]?.join) := by
        refine List.filterMap_congr fun j hj => ?_
        have hij : i ≠ j := fun heq => hi (heq ▸ hj)
        rw [List.getElem?_set_ne hij]
      rw [takeOut, ih his, hrest, List.filterMap_cons]
      cases slots[i]?.join with
      | none => rfl
      | some x => rfl

/-- **Nothing stays in its slot**: from a full set of slots, positions that are those of all slots in
another order take out what they pick, and leave empty slots. -/
theorem takeOut_takeOut {xs : List α} {first second : List Nat}
    (h : (first ++ second).Perm (List.range xs.length)) :
    ∃ left, takeOut first (xs.map some) = (pick xs first, left) ∧
      takeOut second left = (pick xs second, List.replicate xs.length none) := by
  have hnodup : (first ++ second).Nodup := h.nodup_iff.mpr List.nodup_range
  obtain ⟨hfirst, hsecond, hdisjoint⟩ := List.nodup_append.mp hnodup
  have hjoin : ∀ j : Nat, (xs.map some)[j]?.join = xs[j]? := by
    intro j
    rw [List.getElem?_map]
    cases xs[j]? <;> rfl
  refine ⟨emptied first (xs.map some), ?_, ?_⟩
  · rw [takeOut_eq hfirst, pick]
    simp only [hjoin]
  · have hleft : emptied second (emptied first (xs.map some)) = List.replicate xs.length none := by
      have hall : ∀ j < (xs.map some).length, j ∈ first ++ second := fun j hj =>
        h.mem_iff.mpr (List.mem_range.mpr (List.length_map some ▸ hj))
      rw [emptied, emptied, ← List.foldl_append]
      exact (emptied_eq_replicate hall).trans (by rw [List.length_map])
    have htaken : second.filterMap ((emptied first (xs.map some))[·]?.join) = pick xs second := by
      refine List.filterMap_congr fun j hj => ?_
      have hother : j ∉ first := fun hin => hdisjoint j hin j hj rfl
      rw [getElem?_emptied, if_neg hother, hjoin]
    rw [takeOut_eq hsecond, hleft, htaken]

/-! ## parts -/

/-- Positions that there are pick an element each. -/
theorem map_some_pick {xs : List α} {is : List Nat} (h : ∀ i ∈ is, i < xs.length) :
    (pick xs is).map some = is.map (xs[·]?) := by
  induction is with
  | nil => rfl
  | cons i is ih =>
      obtain ⟨hi, his⟩ := List.forall_mem_cons.mp h
      have hpick : pick xs (i :: is) = xs[i] :: pick xs is := by
        rw [pick, List.filterMap_cons, List.getElem?_eq_getElem hi]
        rfl
      rw [hpick, List.map_cons, List.map_cons, ih his, List.getElem?_eq_getElem hi]

namespace Split

/-- The same split of other things. -/
def map (f : α → β) (s : Split α) : Split β :=
  ⟨s.train.map f, s.eval.map f, s.trainIndices, s.evalIndices⟩

/-- Where the things stood before, those held out first. -/
def indices (s : Split α) : List Nat × List Nat := (s.evalIndices, s.trainIndices)

/-- A split at a share gives every position of a list to one part, and the parts are what stands
there. -/
structure Partitions (s : Split α) (xs : List α) (share : Float) : Prop where
  indices : (s.evalIndices ++ s.trainIndices).Perm (List.range xs.length)
  eval : s.eval.map some = s.evalIndices.map (xs[·]?)
  train : s.train.map some = s.trainIndices.map (xs[·]?)
  /-- Taken out of their slots, first those that are held out, all things are there. -/
  taken : ∃ left, takeOut s.evalIndices (xs.map some) = (s.eval, left) ∧
    takeOut s.trainIndices left = (s.train, List.replicate xs.length none)
  length_eval : s.eval.length = evalSize xs.length share
  eval_eq_nil : (share == 0.0) = true ∨ xs.length < 2 → s.eval = []
  length_eval_bounds : (share == 0.0) = false → 2 ≤ xs.length →
    1 ≤ s.eval.length ∧ s.eval.length ≤ xs.length - 1

/-- Any order of all positions makes a partition. -/
theorem partitions_inOrder {order : List Nat} {xs : List α} {share : Float}
    (horder : order.Perm (List.range xs.length)) (hshare : isShare share = true) :
    (inOrder order (evalSize xs.length share) xs).Partitions xs share := by
  generalize hsize : evalSize xs.length share = size
  have hle : size ≤ xs.length - 1 := hsize ▸ evalSize_le xs.length share
  have hnone := evalSize_eq_zero_iff (n := xs.length) hshare
  rw [hsize] at hnone
  have hlength : order.length = xs.length := by rw [horder.length_eq, List.length_range]
  have hrange : ∀ i ∈ order, i < xs.length := fun i hi => List.mem_range.mp (horder.mem_iff.mp hi)
  have hall : (order.take size ++ order.drop size).Perm (List.range xs.length) := by
    rwa [List.take_append_drop]
  have heval : (pick xs (order.take size)).map some = (order.take size).map (xs[·]?) :=
    map_some_pick fun i hi => hrange i (List.mem_of_mem_take hi)
  have hcount : (inOrder order size xs).eval.length = size := by
    have hmap := congrArg List.length heval
    rw [List.length_map, List.length_map, List.length_take] at hmap
    exact hmap.trans (by omega)
  exact {
    indices := hall
    eval := heval
    train := map_some_pick fun i hi => hrange i (List.mem_of_mem_drop hi)
    taken := takeOut_takeOut hall
    length_eval := hcount.trans hsize.symm
    eval_eq_nil := fun h => List.eq_nil_of_length_eq_zero (hcount.trans (hnone.mpr h))
    length_eval_bounds := by
      intro hzero htwo
      have hsome : size ≠ 0 := by
        rw [ne_eq, hnone, hzero]
        simp only [Bool.false_eq_true, false_or]
        omega
      omega }

end Split

/-! ## splits -/

/-- The split of a list with any swaps in place of those that a seed chooses. -/
def splitBy (swaps : Nat → List (Nat × Nat)) (xs : List α) (share : Float) :
    Except Failure (Split α) :=
  if !isShare share then
    let given := Decimal.plain.writeFloat share
    .error ⟨s!"eval_fraction must be in [0, 1), got {given}", []⟩
  else
    let order := (Shuffle.applySwaps (swaps xs.length) (Array.range xs.length)).toList
    .ok (.inOrder order (evalSize xs.length share) xs)

theorem split_eq_splitBy (xs : List α) (share : Float) (seed : UInt64) :
    split xs share seed = splitBy (Shuffle.swaps · seed) xs share := rfl

theorem splitBy_eq_ok_iff {swaps : Nat → List (Nat × Nat)} {xs : List α} {share : Float}
    {s : Split α} :
    splitBy swaps xs share = .ok s ↔ isShare share = true ∧
      s = .inOrder (Shuffle.applySwaps (swaps xs.length) (Array.range xs.length)).toList
        (evalSize xs.length share) xs := by
  cases h : isShare share with
  | false => simp [splitBy, h]
  | true => simp [splitBy, h, eq_comm]

/-- A way to split lists at shares that fails for what is no share, gives every element to one part,
and goes by the length of the list only. -/
structure Partitioning (divide : {α : Type} → List α → Float → Except Failure (Split α)) :
    Prop where
  error_iff : ∀ {α : Type} (xs : List α) (share : Float),
    (∃ fault, divide xs share = .error fault) ↔
      share.isNaN = true ∨ share < 0.0 ∨ 1.0 ≤ share
  partitions : ∀ {α : Type} {xs : List α} {share : Float} {s : Split α},
    divide xs share = .ok s → s.Partitions xs share
  /-- What is split along with the elements is split in the same way. -/
  map : ∀ {α β : Type} (f : α → β) (xs : List α) (share : Float),
    divide (xs.map f) share = (divide xs share).map (Split.map f)
  indices : ∀ {α β : Type} {xs : List α} {ys : List β} (share : Float), xs.length = ys.length →
    (divide xs share).map Split.indices = (divide ys share).map Split.indices

/-- **Whatever is swapped**, elements are partitioned. -/
theorem partitioning_splitBy (swaps : Nat → List (Nat × Nat)) : Partitioning (splitBy swaps) where
  error_iff xs share := by
    rw [Result.exists_eq_error_iff, ← isShare_eq_false_iff]
    simp [splitBy_eq_ok_iff]
  partitions {α xs share s} h := by
    obtain ⟨hshare, rfl⟩ := splitBy_eq_ok_iff.mp h
    have horder := (Shuffle.applySwaps_perm (swaps xs.length) (Array.range xs.length)).toList
    rw [Array.toList_range] at horder
    exact Split.partitions_inOrder horder hshare
  map f xs share := by
    cases h : isShare share with
    | false => simp [splitBy, h, Except.map]
    | true =>
        rw [splitBy_eq_ok_iff.mpr ⟨h, rfl⟩, splitBy_eq_ok_iff.mpr ⟨h, rfl⟩, List.length_map]
        simp only [Split.inOrder, pick_map]
        rfl
  indices {α β xs ys} share hlength := by
    cases h : isShare share with
    | false => simp [splitBy, h, Except.map]
    | true =>
        rw [splitBy_eq_ok_iff.mpr ⟨h, rfl⟩, splitBy_eq_ok_iff.mpr ⟨h, rfl⟩, hlength]
        rfl

/-! ## batches -/

theorem flatten_runs (size : Nat) (xs : List α) : (runs size xs).flatten = xs := by
  fun_induction runs size xs with
  | case1 => rfl
  | case2 x rest ih => rw [List.flatten_cons, ih, List.cons_append, List.take_append_drop]

theorem length_of_mem_runs (size : Nat) (xs : List α) :
    ∀ run ∈ runs size xs, run ≠ [] ∧ run.length ≤ size + 1 := by
  fun_induction runs size xs with
  | case1 => simp
  | case2 x rest ih =>
      have hlength : (x :: rest.take size).length ≤ size + 1 :=
        Nat.succ_le_succ (List.length_take_le _ _)
      exact List.forall_mem_cons.mpr ⟨⟨List.cons_ne_nil _ _, hlength⟩, ih⟩

theorem runs_eq_nil_iff {size : Nat} {xs : List α} : runs size xs = [] ↔ xs = [] := by
  cases xs with
  | nil => simp [runs]
  | cons x rest => simp [runs]

/-- Only the last run may be shorter. -/
theorem length_of_mem_dropLast_runs (size : Nat) (xs : List α) :
    ∀ run ∈ (runs size xs).dropLast, run.length = size + 1 := by
  fun_induction runs size xs with
  | case1 => simp
  | case2 x rest ih =>
      by_cases hrest : rest.drop size = []
      · rw [runs_eq_nil_iff.mpr hrest]
        simp
      · have hmore : runs size (rest.drop size) ≠ [] := fun h => hrest (runs_eq_nil_iff.mp h)
        have hlong : size < rest.length := by
          rw [List.drop_eq_nil_iff] at hrest
          omega
        rw [List.dropLast_cons_of_ne_nil hmore, List.forall_mem_cons]
        refine ⟨?_, ih⟩
        rw [List.length_cons, List.length_take]
        omega

namespace Batch

/-- Batches hold some rows in order, column by column, and are of one size; only the last may be
smaller, and none is empty. -/
structure Hold (batches : List Batch) (rows : List Row) (size : Nat) : Prop where
  inputIds : batches.flatMap Batch.inputIds = rows.map Row.inputIds
  masks : batches.flatMap Batch.masks = rows.map Row.mask
  labels : batches.flatMap Batch.labels = rows.map Row.labels
  /-- What stands at one place of the columns of a batch is from one row. -/
  length_columns : ∀ batch ∈ batches,
    batch.masks.length = batch.length ∧ batch.labels.length = batch.length
  length_eq : ∀ batch ∈ batches.dropLast, batch.length = size
  length_le : ∀ batch ∈ batches, batch.isEmpty = false ∧ batch.length ≤ size

@[simp] theorem length_stack (rows : List Row) : (stack rows).length = rows.length :=
  List.length_map _

@[simp] theorem isEmpty_stack (rows : List Row) : (stack rows).isEmpty = rows.isEmpty := by
  cases rows with
  | nil => rfl
  | cons row rows => rfl

/-- A column of stacked runs is that of all their rows. -/
theorem flatMap_map_stack {column : Batch → List β} {cell : Row → β}
    (h : ∀ rows, column (stack rows) = rows.map cell) (parts : List (List Row)) :
    (parts.map stack).flatMap column = parts.flatten.map cell := by
  rw [List.flatMap_map, List.map_flatten, List.flatMap_def]
  simp only [h]

/-- Stacked runs hold what the runs hold. -/
theorem hold_map_stack {parts : List (List Row)} {size : Nat}
    (hfull : ∀ run ∈ parts.dropLast, run.length = size)
    (hall : ∀ run ∈ parts, run ≠ [] ∧ run.length ≤ size) :
    Hold (parts.map stack) parts.flatten size where
  inputIds := flatMap_map_stack (fun _ => rfl) parts
  masks := flatMap_map_stack (fun _ => rfl) parts
  labels := flatMap_map_stack (fun _ => rfl) parts
  length_columns := by
    refine List.forall_mem_map.mpr fun run _ => ?_
    rw [length_stack]
    exact ⟨List.length_map _, List.length_map _⟩
  length_eq := by
    rw [← List.map_dropLast]
    refine List.forall_mem_map.mpr fun run hrun => ?_
    rw [length_stack]
    exact hfull run hrun
  length_le := by
    refine List.forall_mem_map.mpr fun run hrun => ?_
    obtain ⟨hne, hle⟩ := hall run hrun
    rw [length_stack, isEmpty_stack]
    exact ⟨List.isEmpty_eq_false_iff.mpr hne, hle⟩

end Batch

/-- **Batches hold what is for training**: they are runs of one length, one at least, stacked. -/
theorem Split.hold_batches (s : Split Row) (size : Nat) :
    Batch.Hold (s.batches size) s.train (max size 1) := by
  have hsize : max size 1 - 1 + 1 = max size 1 := by omega
  have hfull := length_of_mem_dropLast_runs (max size 1 - 1) s.train
  have hall := length_of_mem_runs (max size 1 - 1) s.train
  rw [hsize] at hfull hall
  have hhold := Batch.hold_map_stack hfull hall
  rwa [flatten_runs] at hhold

/-! ## the whole -/

/-- **A split partitions its list**, for every seed and, in the place of the swaps that a seed
chooses, for any others; those of a seed are in range.  And the batches hold what is for training,
column by column. -/
theorem partitioning_split (seed : UInt64) :
    Partitioning (fun xs share => split xs share seed) ∧
    (∀ {α : Type} (xs : List α) share,
      split xs share seed = splitBy (Shuffle.swaps · seed) xs share) ∧
    (∀ swaps, Partitioning (splitBy swaps)) ∧
    (∀ n, ∀ swap ∈ Shuffle.swaps n seed, swap.2 ≤ swap.1 ∧ swap.1 < n) ∧
    ∀ (s : Split Row) (size : Nat), Batch.Hold (s.batches size) s.train (max size 1) :=
  ⟨partitioning_splitBy (Shuffle.swaps · seed), fun xs share => split_eq_splitBy xs share seed,
    partitioning_splitBy, fun n => Shuffle.swaps_inRange n seed, Split.hold_batches⟩

/-- One of two things is held out. -/
theorem partitions_of_half :
    ∃ s, split [10, 20] 0.5 42 = .ok s ∧ s.Partitions [10, 20] 0.5 ∧ s.eval.length = 1 := by
  obtain ⟨herror, hpartitions, _, _⟩ := (partitioning_split 42).1
  have hshare : ¬ ((0.5 : Float).isNaN = true ∨ (0.5 : Float) < 0.0 ∨ (1.0 : Float) ≤ 0.5) := by
    decide +kernel
  cases h : split [10, 20] 0.5 42 with
  | error fault => exact absurd ((herror _ _).mp ⟨fault, h⟩) hshare
  | ok s =>
      have hs := hpartitions h
      obtain ⟨hsome, hrest⟩ := hs.length_eval_bounds (by decide +kernel) (by decide)
      exact ⟨s, rfl, hs, Nat.le_antisymm hrest hsome⟩

end InstallAssistant.Training
