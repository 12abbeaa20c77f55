import InstallAssistant.Training.Compiler
import Mathlib.Data.String.Basic

/-!
# InstallAssistant.Proofs.Training.Tally

What compiling many examples comes to: the rows of those that have one, in order,
and a count for each reason why others have none (`Compiler.counts_dropped`).
Nothing falls between the two (`Compiler.compiled_add_dropped`).
-/

namespace InstallAssistant.Training

/-! ## counts by name -/

namespace Tally

/-- A tally counts names: each that occurs has one entry, in increasing order. -/
structure Counts (t : Tally) (names : List String) : Prop where
  increasing : t.Pairwise fun a b => a.1 < b.1
  lookup : ∀ name, t.lookup name =
    if names.count name = 0 then none else some (names.count name)

theorem Counts.nil : Counts [] [] := ⟨.nil, fun _ => rfl⟩

theorem lookup_cons (name : String) (e : String × Nat) (t : Tally) :
    List.lookup name (e :: t) = if name = e.1 then some e.2 else t.lookup name := by
  rw [List.lookup_cons]
  cases h : name == e.1 with
  | true => rw [if_pos (beq_iff_eq.mp h)]
  | false => rw [if_neg (beq_eq_false_iff_ne.mp h)]

theorem key_of_mem_add {t : Tally} {name : String} {entry : String × Nat}
    (h : entry ∈ t.add name) : entry.1 = name ∨ ∃ e ∈ t, e.1 = entry.1 := by
  induction t with
  | nil =>
      obtain rfl := List.mem_singleton.mp h
      exact .inl rfl
  | cons e t ih =>
      rw [add] at h
      split at h
      · rcases List.mem_cons.mp h with rfl | h
        · exact .inl rfl
        · exact .inr ⟨entry, h, rfl⟩
      · split at h
        · rcases List.mem_cons.mp h with rfl | h
          · exact .inr ⟨e, List.mem_cons_self, rfl⟩
          · exact .inr ⟨entry, List.mem_cons_of_mem _ h, rfl⟩
        · rcases List.mem_cons.mp h with rfl | h
          · exact .inr ⟨_, List.mem_cons_self, rfl⟩
          · rcases ih h with h | ⟨e', he', h⟩
            · exact .inl h
            · exact .inr ⟨e', List.mem_cons_of_mem _ he', h⟩

theorem increasing_add {t : Tally} (h : t.Pairwise fun a b => a.1 < b.1) (name : String) :
    (t.add name).Pairwise fun a b => a.1 < b.1 := by
  induction t with
  | nil => exact List.pairwise_singleton _ _
  | cons e t ih =>
      obtain ⟨hhead, htail⟩ := List.pairwise_cons.mp h
      rw [add]
      split
      · next hlt =>
        refine List.pairwise_cons.mpr ⟨fun e' he' => ?_, h⟩
        rcases List.mem_cons.mp he' with rfl | he'
        · exact hlt
        · exact lt_trans hlt (hhead e' he')
      · next hnlt =>
        split
        · exact List.pairwise_cons.mpr ⟨hhead, htail⟩
        · next hne =>
          refine List.pairwise_cons.mpr ⟨fun e' he' => ?_, ih htail⟩
          rcases key_of_mem_add he' with heq | ⟨e'', he'', heq⟩
          · exact heq ▸ lt_of_le_of_ne (not_lt.mp hnlt) (Ne.symm hne)
          · exact heq ▸ hhead e'' he''

theorem lookup_add {t : Tally} (h : t.Pairwise fun a b => a.1 < b.1) (name n : String) :
    (t.add name).lookup n =
      if n = name then some ((t.lookup name).getD 0 + 1) else t.lookup n := by
  induction t with
  | nil => rw [add, lookup_cons]; rfl
  | cons e t ih =>
      obtain ⟨hhead, htail⟩ := List.pairwise_cons.mp h
      rw [add]
      split
      · next hlt =>
        have hnone : List.lookup name (e :: t) = none := by
          refine List.lookup_eq_none_iff.mpr fun e' he' => ?_
          rcases List.mem_cons.mp he' with rfl | he'
          · exact bne_iff_ne.mpr (ne_of_lt hlt)
          · exact bne_iff_ne.mpr (ne_of_lt (lt_trans hlt (hhead e' he')))
        rw [hnone, lookup_cons]
        rfl
      · split
        · next heq =>
          rw [lookup_cons, lookup_cons, lookup_cons, heq, if_pos rfl]
          by_cases hn : n = e.1 <;> simp [hn]
        · next hne =>
          rw [lookup_cons, lookup_cons, lookup_cons, ih htail, if_neg hne]
          by_cases hn : n = name
          · simp [hn, hne]
          · simp [hn]

theorem Counts.add {t : Tally} {names : List String} (h : Counts t names) (name : String) :
    Counts (t.add name) (names ++ [name]) := by
  refine ⟨increasing_add h.increasing name, fun n => ?_⟩
  rw [lookup_add h.increasing, h.lookup, h.lookup, List.count_append]
  by_cases hn : n = name
  · by_cases hzero : names.count name = 0 <;> simp [hn, hzero]
  · simp [hn, Ne.symm hn]

/-- A tally with names added one after the other. -/
def addAll (t : Tally) (names : List String) : Tally := names.foldl (fun t name => t.add name) t

/-- **Adding names one after the other counts them.** -/
theorem Counts.addAll {t : Tally} {names : List String} (h : Counts t names) (more : List String) :
    Counts (t.addAll more) (names ++ more) := by
  induction more generalizing t names with
  | nil => rwa [List.append_nil]
  | cons name more ih =>
      have hmore := ih (h.add name)
      rwa [List.append_assoc] at hmore

theorem total_add (t : Tally) (name : String) : (t.add name).total = t.total + 1 := by
  induction t with
  | nil => rfl
  | cons e t ih =>
      simp only [total] at ih ⊢
      rw [Tally.add]
      split
      · simp only [List.foldr_cons]; omega
      · split
        · simp only [List.foldr_cons]; omega
        · simp only [List.foldr_cons, ih]; omega

theorem total_addAll (t : Tally) (names : List String) :
    (t.addAll names).total = t.total + names.length := by
  induction names generalizing t with
  | nil => rfl
  | cons name names ih =>
      rw [addAll, List.foldl_cons, ← addAll, ih, total_add, List.length_cons]
      omega

/-- The count of a name, as it is written. -/
theorem Counts.member?_toJson {t : Tally} {names : List String} (h : Counts t names)
    (name : String) :
    t.toJson.member? name =
      if names.count name = 0 then none else some (.nat (names.count name)) := by
  have hlookup : t.toJson.member? name = (t.lookup name).map .nat := by
    rw [toJson, Json.member?]
    clear h
    induction t with
    | nil => rfl
    | cons e t ih =>
        rw [List.map_cons, List.find?_cons, lookup_cons]
        by_cases hn : name = e.1
        · simp [hn]
        · simp only [hn, if_false, ← ih, beq_eq_false_iff_ne.mpr (Ne.symm hn)]
  rw [hlookup, h.lookup]
  split <;> rfl

end Tally

/-! ## many examples -/

namespace Compiler

variable (c : Compiler) (examples : List Example)

/-- The row of an example, if it has one. -/
def row? (e : Example) : Option Row := (c.compileExample e).toOption

/-- The reason why an example has no row, if it has none. -/
def reason? (e : Example) : Option String :=
  match c.compileExample e with
  | .ok _ => none
  | .error fault => some fault.reason

theorem row?_eq_some_iff {e : Example} {row : Row} :
    c.row? e = some row ↔ c.compileExample e = .ok row := by
  rw [row?]
  cases c.compileExample e <;> simp [Except.toOption]

theorem isSome_reason? (e : Example) : (c.reason? e).isSome = !(c.row? e).isSome := by
  rw [reason?, row?]
  cases c.compileExample e <;> rfl

/-- The rows are those of the examples, in their order. -/
theorem rows_compileAll : (c.compileAll examples).1 = examples.filterMap c.row? :=
  List.filterMap_map

theorem dropped_compileAll :
    (c.compileAll examples).2.dropped = Tally.addAll [] (examples.filterMap c.reason?) := by
  rw [Tally.addAll, List.foldl_filterMap]
  show (examples.map c.compileExample).foldl _ [] = _
  rw [List.foldl_map]
  congr 1
  funext t e
  rw [reason?]
  cases c.compileExample e <;> rfl

/-- **Every reason is counted**: how many examples were dropped for it. -/
theorem counts_dropped :
    (c.compileAll examples).2.dropped.Counts (examples.filterMap c.reason?) := by
  rw [dropped_compileAll]
  exact Tally.Counts.nil.addAll _

/-- **No example is lost**: each has a row or is counted as dropped. -/
theorem compiled_add_dropped :
    (c.compileAll examples).2.compiled + (c.compileAll examples).2.dropped.total =
      examples.length := by
  have hcompiled : (c.compileAll examples).2.compiled =
      examples.countP fun e => (c.row? e).isSome := by
    show (c.compileAll examples).1.length = _
    rw [rows_compileAll, List.length_filterMap_eq_countP]
  have hdropped : (c.compileAll examples).2.dropped.total =
      examples.countP fun e => ¬ (c.row? e).isSome := by
    rw [dropped_compileAll, Tally.total_addAll, List.length_filterMap_eq_countP]
    refine (Nat.zero_add _).trans (List.countP_congr fun e _ => ?_)
    simp [isSome_reason?]
  rw [hcompiled, hdropped, ← List.length_eq_countP_add_countP]

end Compiler

end InstallAssistant.Training
