/-!
# InstallAssistant.Text.Ordered

Sets of texts as lists in increasing order, each text once.  A set holds what went
in (`mem_ofList`), in strictly increasing order (`pairwise_ofList`).
-/

namespace InstallAssistant.Text.Ordered

/-- Puts a text where it belongs, unless it is there already. -/
def insert (s : String) : List String → List String
  | [] => [s]
  | t :: ts => if s < t then s :: t :: ts else if s = t then t :: ts else t :: insert s ts

def ofList (texts : List String) : List String := texts.foldl (fun set s => insert s set) []

/-! ## laws -/

@[simp] theorem mem_insert {s x : String} {ts : List String} :
    x ∈ insert s ts ↔ x = s ∨ x ∈ ts := by
  induction ts with
  | nil => simp [insert]
  | cons t ts ih =>
    simp only [insert]
    split
    · simp
    · split
      · simp_all
      · simp only [List.mem_cons, ih]
        constructor
        · rintro (h | h | h) <;> simp [h]
        · rintro (h | h | h) <;> simp [h]

theorem mem_foldl_insert {x : String} (texts set : List String) :
    x ∈ texts.foldl (fun set s => insert s set) set ↔ x ∈ texts ∨ x ∈ set := by
  induction texts generalizing set with
  | nil => simp
  | cons t ts ih =>
    simp only [List.foldl_cons, ih, mem_insert, List.mem_cons]
    constructor
    · rintro (h | h | h) <;> simp [h]
    · rintro ((h | h) | h) <;> simp [h]

@[simp] theorem mem_ofList {x : String} {texts : List String} : x ∈ ofList texts ↔ x ∈ texts := by
  simp [ofList, mem_foldl_insert]

/-- Insertion keeps the order. -/
theorem pairwise_insert {s : String} {ts : List String} (h : ts.Pairwise (· < ·)) :
    (insert s ts).Pairwise (· < ·) := by
  induction ts with
  | nil => simp [insert]
  | cons t ts ih =>
    have ⟨first, rest⟩ := List.pairwise_cons.mp h
    simp only [insert]
    split
    · next hst =>
      refine List.pairwise_cons.mpr ⟨fun x hx => ?_, h⟩
      rcases List.mem_cons.mp hx with rfl | hx
      · exact hst
      · exact String.lt_trans hst (first x hx)
    · next hst =>
      split
      · exact h
      · next hne =>
        refine List.pairwise_cons.mpr ⟨fun x hx => ?_, ih rest⟩
        rcases mem_insert.mp hx with rfl | hx
        · exact Std.lt_of_le_of_ne (Std.not_lt.mp hst) (Ne.symm hne)
        · exact first x hx

theorem pairwise_ofList (texts : List String) : (ofList texts).Pairwise (· < ·) := by
  suffices ∀ set : List String, set.Pairwise (· < ·) →
      (texts.foldl (fun set s => insert s set) set).Pairwise (· < ·) from this [] .nil
  induction texts with
  | nil => exact fun _ h => h
  | cons t ts ih => exact fun _ h => ih _ (pairwise_insert h)

end InstallAssistant.Text.Ordered
