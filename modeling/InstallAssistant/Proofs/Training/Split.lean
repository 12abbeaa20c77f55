import InstallAssistant.Training.Split

/-!
# InstallAssistant.Proofs.Training.Split

A split is a partition: shuffling exchanges positions and nothing else
(`shuffle_perm`), so each position goes to training or to evaluation, once
(`Split.divides_of_split`), and what belongs to the elements is split along with
them (`Split.Divides.along`).  Training always gets something
(`Split.train_ne_nil`).
-/

namespace InstallAssistant.Training

variable {α β γ : Type}

/-! ## shuffling -/

theorem Shuffle.swapIfInBounds_perm (xs : Array α) (i j : Nat) :
    (xs.swapIfInBounds i j).Perm xs := by
  rw [Array.swapIfInBounds_def]
  split
  · split
    · exact Array.swap_perm _ _
    · exact .rfl
  · exact .rfl

theorem Shuffle.applySwaps_perm (swaps : List (Nat × Nat)) (xs : Array α) :
    (applySwaps swaps xs).Perm xs := by
  induction swaps generalizing xs with
  | nil => exact .rfl
  | cons swap swaps ih => exact (ih _).trans (swapIfInBounds_perm xs swap.1 swap.2)

/-- **A shuffle is a permutation**, whatever the seed chooses. -/
theorem shuffle_perm (n : Nat) (seed : UInt64) : (shuffle n seed).Perm (List.range n) := by
  have h := (Shuffle.applySwaps_perm (Shuffle.swaps n seed) (Array.range n)).toList
  rwa [Array.toList_range] at h

/-! ## picking -/

theorem pick_append (xs : List α) (is js : List Nat) :
    pick xs (is ++ js) = pick xs is ++ pick xs js :=
  List.filterMap_append

theorem pick_map (f : α → β) (xs : List α) (is : List Nat) :
    pick (xs.map f) is = (pick xs is).map f := by
  simp [pick, List.map_filterMap]

theorem pick_perm {is js : List Nat} (xs : List α) (h : is.Perm js) :
    (pick xs is).Perm (pick xs js) :=
  h.filterMap _

theorem pick_range (xs : List α) : pick xs (List.range xs.length) = xs := by
  have hmap : (List.range xs.length).map (xs[·]?) = xs.map some :=
    List.ext_getElem (by simp) (by simp)
  calc pick xs (List.range xs.length)
      = ((List.range xs.length).map (xs[·]?)).filterMap id := by rw [List.filterMap_map]; rfl
    _ = xs := by rw [hmap, List.filterMap_map, Function.id_comp, List.filterMap_some]

/-! ## parts -/

/-- What is held out and what is left of things that are taken in an order. -/
def Split.inOrder (order : List Nat) (size : Nat) (xs : List α) : Split α :=
  ⟨pick xs (order.drop size), pick xs (order.take size), order.drop size, order.take size⟩

theorem split_eq_ok_iff {xs : List α} {share : Float} {seed : UInt64} {s : Split α} :
    split xs share seed = .ok s ↔ isShare share = true ∧
      s = .inOrder (shuffle xs.length seed) (evalSize xs.length share) xs := by
  cases h : isShare share with
  | false => simp [split, h]
  | true => simp [split, Split.inOrder, h, eq_comm]

/-- A split gives each element of a list to one of its parts, once. -/
structure Split.Divides (s : Split α) (xs : List α) : Prop where
  train : s.train = pick xs s.trainIndices
  eval : s.eval = pick xs s.evalIndices
  indices : (s.trainIndices ++ s.evalIndices).Perm (List.range xs.length)

namespace Split

variable {s : Split α} {xs : List α} {share : Float} {seed : UInt64}

theorem Divides.perm (h : s.Divides xs) : (s.train ++ s.eval).Perm xs := by
  rw [h.train, h.eval, ← pick_append]
  exact (pick_perm xs h.indices).trans (.of_eq (pick_range xs))

/-- What belongs to the elements, one to one, is split along with them. -/
theorem Divides.along {ys : List β} {f : β → γ} {g : α → γ} (h : s.Divides xs)
    (hys : ys.map f = xs.map g) :
    (pick ys s.trainIndices ++ pick ys s.evalIndices).Perm ys ∧
      (pick ys s.trainIndices).map f = s.train.map g ∧
      (pick ys s.evalIndices).map f = s.eval.map g := by
  have hlength : ys.length = xs.length := by simpa using congrArg List.length hys
  refine ⟨?_, ?_, ?_⟩
  · rw [← pick_append]
    exact (pick_perm ys (hlength ▸ h.indices)).trans (.of_eq (pick_range ys))
  · rw [h.train, ← pick_map, ← pick_map, hys]
  · rw [h.eval, ← pick_map, ← pick_map, hys]

/-- **A split divides its list.** -/
theorem divides_of_split (h : split xs share seed = .ok s) : s.Divides xs := by
  obtain ⟨_, rfl⟩ := split_eq_ok_iff.mp h
  refine ⟨rfl, rfl, List.perm_append_comm.trans ?_⟩
  rw [Split.inOrder, List.take_append_drop]
  exact shuffle_perm _ seed

theorem length_of_split (h : split xs share seed = .ok s) :
    s.train.length + s.eval.length = xs.length := by
  rw [← List.length_append, (divides_of_split h).perm.length_eq]

theorem evalSize_le (n : Nat) (share : Float) : evalSize n share ≤ n - 1 := by
  rw [evalSize]
  split
  · exact Nat.zero_le _
  · next h =>
    have hn : ¬ n < 2 := fun hlt => h (by simp [hlt])
    simp only
    omega

/-- Not all of something is held out. -/
theorem train_ne_nil (h : split xs share seed = .ok s) (hxs : xs ≠ []) : s.train ≠ [] := by
  have heval : s.eval.length ≤ evalSize xs.length share := by
    obtain ⟨_, rfl⟩ := split_eq_ok_iff.mp h
    exact Nat.le_trans (List.length_filterMap_le _ _) (List.length_take_le _ _)
  have hsum := length_of_split h
  have hsize := evalSize_le xs.length share
  have hpos := List.length_pos_iff.mpr hxs
  exact List.length_pos_iff.mp (by omega)

end Split

end InstallAssistant.Training
