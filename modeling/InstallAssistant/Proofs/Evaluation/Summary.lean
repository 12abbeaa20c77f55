import InstallAssistant.Evaluation.Run
import Mathlib.Algebra.Order.Field.Rat
import Mathlib.Data.List.Sort
import Mathlib.Data.String.Basic

/-!
# InstallAssistant.Proofs.Evaluation.Summary

What a summary says of the results that it is made of.  It can be kept while the
results come in, one at a time (`Summary.ofResults_eq_foldl`), and each result leaves its
counts in order: those of the categories add up to those of all cases, and no more cases
are good than are answered in the way that they ask for
(`Summary.Consistent.record`, `Summary.consistent_ofResults`).

The summary of results side by side adds up what it is for each of them
(`Summary.sums_ofResults`), so only the failures depend on the order of the results
(`Summary.ofResults_of_perm`).
-/

namespace InstallAssistant.Evaluation

/-! ## scores -/

namespace Score

instance : Add Score := ⟨fun a b => ⟨a.total + b.total, a.correct + b.correct⟩⟩

theorem correct_add (a b : Score) : (a + b).correct = a.correct + b.correct := rfl

theorem zero_add (s : Score) : ⟨0, 0⟩ + s = s := by
  cases s
  exact congrArg₂ Score.mk (Nat.zero_add _) (Nat.zero_add _)

/-- A score with one more result. -/
def record (s : Score) (correct : Bool) : Score :=
  ⟨s.total + 1, s.correct + if correct then 1 else 0⟩

theorem ofResults_append (xs ys : List Scored) :
    ofResults (xs ++ ys) = ofResults xs + ofResults ys := by
  rw [ofResults, List.length_append, List.countP_append]
  rfl

theorem ofResults_concat (results : List Scored) (r : Scored) :
    ofResults (results ++ [r]) = (ofResults results).record r.correct := by
  rw [ofResults, List.length_append, List.countP_append, List.countP_singleton]
  rfl

theorem ofResults_of_perm {xs ys : List Scored} (h : xs.Perm ys) : ofResults xs = ofResults ys := by
  rw [ofResults, ofResults, h.length_eq, h.countP_eq]

end Score

/-! ## fair results -/

namespace Scored

open Summary (asksForCommand isText)

/-- A result that is scored by what its case asks for. -/
def IsFair (r : Scored) : Prop := r.correct = r.case.isCorrect r.observed

variable {r : Scored}

theorem IsFair.isSome_command (h : r.IsFair) (hcorrect : r.correct = true)
    (hasks : asksForCommand r = true) : r.observed.command.isSome = true := by
  obtain ⟨patterns, hpatterns⟩ := Option.isSome_iff_exists.mp hasks
  rw [h, Case.isCorrect, hpatterns] at hcorrect
  cases hcommand : r.observed.command with
  | none => simp [hcommand] at hcorrect
  | some command => rfl

theorem IsFair.isText (h : r.IsFair) (hcorrect : r.correct = true)
    (hasks : asksForCommand r = false) : isText r.observed = true := by
  have hnone : r.case.expect = none := Option.not_isSome_iff_eq_none.mp (Bool.eq_false_iff.mp hasks)
  rw [h, Case.isCorrect, hnone, Bool.and_eq_true] at hcorrect
  rw [Summary.isText, hcorrect.1, Bool.true_and]
  cases htext : r.observed.text with
  | none => simp [htext] at hcorrect
  | some t => rfl

end Scored

namespace Summary

/-! ## one result more -/

/-- The scores by category with one more result. -/
def recordIn (name : String) (correct : Bool) : List (String × Score) → List (String × Score)
  | [] => [(name, (⟨0, 0⟩ : Score).record correct)]
  | (n, s) :: rest =>
    if name < n then (name, (⟨0, 0⟩ : Score).record correct) :: (n, s) :: rest
    else if name = n then (n, s.record correct) :: rest
    else (n, s) :: recordIn name correct rest

/-- The summary of no results. -/
def empty : Summary := ⟨⟨0, 0⟩, ⟨0, 0⟩, 0, 0, 0, [], []⟩

/-- A summary with one more result. -/
def record (s : Summary) (r : Scored) : Summary where
  score := s.score.record r.correct
  command := if asksForCommand r then s.command.record r.correct else s.command
  commands := s.commands + if r.observed.command.isSome then 1 else 0
  textCases := s.textCases + if !asksForCommand r then 1 else 0
  texts := s.texts + if !asksForCommand r && isText r.observed then 1 else 0
  categories := recordIn r.case.category r.correct s.categories
  failures := s.failures ++ if r.correct then [] else [r]

theorem inCategory_append (name : String) (xs ys : List Scored) :
    inCategory name (xs ++ ys) = inCategory name xs ++ inCategory name ys :=
  List.filter_append ..

theorem ofResults_inCategory_of_notMem {name : String} {results : List Scored}
    (h : name ∉ results.map (·.case.category)) :
    Score.ofResults (inCategory name results) = ⟨0, 0⟩ := by
  have hnil : inCategory name results = [] := by
    rw [inCategory, List.filter_eq_nil_iff]
    intro r hr heq
    exact h (beq_iff_eq.mp heq ▸ List.mem_map_of_mem hr)
  rw [hnil]
  rfl

theorem inCategory_concat (name : String) (results : List Scored) (r : Scored) :
    inCategory name (results ++ [r]) =
      inCategory name results ++ if r.case.category = name then [r] else [] := by
  rw [inCategory_append]
  simp [inCategory, List.filter_singleton]

/-- A category that is new, or has one more result. -/
theorem map_insert_eq_recordIn {names : List String} (hsorted : names.Pairwise (· < ·))
    {name : String} {correct : Bool} {score score' : String → Score}
    (hsame : ∀ n, n ≠ name → score' n = score n)
    (hname : score' name = (score name).record correct)
    (hnew : name ∉ names → score name = ⟨0, 0⟩) :
    (Text.Ordered.insert name names).map (fun n => (n, score' n)) =
      recordIn name correct (names.map fun n => (n, score n)) := by
  induction names with
  | nil => simp [Text.Ordered.insert, recordIn, hname, hnew]
  | cons n names ih =>
      obtain ⟨hfirst, hrest⟩ := List.pairwise_cons.mp hsorted
      rw [Text.Ordered.insert, List.map_cons, recordIn]
      by_cases hlt : name < n
      · have hne : ∀ m ∈ n :: names, m ≠ name := by
          intro m hm
          rcases List.mem_cons.mp hm with rfl | hm
          · exact hlt.ne'
          · exact (hlt.trans (hfirst m hm)).ne'
        have hzero := hnew fun hmem => hne name hmem rfl
        have hold : (n :: names).map (fun n => (n, score' n)) =
            (n :: names).map fun n => (n, score n) :=
          List.map_congr_left fun m hm => by rw [hsame m (hne m hm)]
        rw [if_pos hlt, if_pos hlt, List.map_cons, hname, hzero, hold, List.map_cons]
      · rw [if_neg hlt, if_neg hlt]
        by_cases heq : name = n
        · subst heq
          rw [if_pos rfl, if_pos rfl, List.map_cons, hname]
          exact congrArg _ (List.map_congr_left fun m hm => by rw [hsame m (hfirst m hm).ne'])
        · rw [if_neg heq, if_neg heq, List.map_cons, hsame n (Ne.symm heq), ih hrest]
          exact fun hmem => hnew (by simp [heq, hmem])

theorem categories_concat (results : List Scored) (r : Scored) :
    (ofResults (results ++ [r])).categories =
      recordIn r.case.category r.correct (ofResults results).categories := by
  have hnames : Text.Ordered.ofList ((results ++ [r]).map (·.case.category)) =
      Text.Ordered.insert r.case.category
        (Text.Ordered.ofList (results.map (·.case.category))) := by
    rw [Text.Ordered.ofList, List.map_append, List.foldl_append]
    rfl
  show (Text.Ordered.ofList ((results ++ [r]).map (·.case.category))).map _ = _
  rw [hnames]
  -- all scores are counted anew, but only that of the category of `r` comes out different
  refine map_insert_eq_recordIn (Text.Ordered.pairwise_ofList _) (fun n hn => ?_) ?_ fun hnew =>
    ofResults_inCategory_of_notMem (Text.Ordered.mem_ofList.not.mp hnew)
  · rw [inCategory_concat, if_neg (Ne.symm hn), List.append_nil]
  · rw [inCategory_concat, if_pos rfl, Score.ofResults_concat]

/-- **A summary is kept result by result.** -/
theorem ofResults_concat (results : List Scored) (r : Scored) :
    ofResults (results ++ [r]) = (ofResults results).record r := by
  have hcommand : Score.ofResults ((results ++ [r]).filter asksForCommand) =
      if asksForCommand r then (Score.ofResults (results.filter asksForCommand)).record r.correct
      else Score.ofResults (results.filter asksForCommand) := by
    rw [List.filter_append, List.filter_singleton]
    cases asksForCommand r with
    | true => exact Score.ofResults_concat _ r
    | false => simp
  have hfailures : ((results ++ [r]).filter fun r => !r.correct) =
      (results.filter fun r => !r.correct) ++ if r.correct then [] else [r] := by
    rw [List.filter_append, List.filter_singleton]
    cases r.correct <;> rfl
  rw [record, ← categories_concat]
  simp only [ofResults, Score.ofResults_concat, hcommand, hfailures, List.countP_append,
    List.countP_singleton]

/-- **A summary is counted in one pass** over the results. -/
theorem ofResults_eq_foldl (results : List Scored) :
    ofResults results = results.foldl record empty := by
  -- by induction on what is to come, behind anything that is done
  have hrun : ∀ more done, ofResults (done ++ more) = more.foldl record (ofResults done) := by
    intro more
    induction more with
    | nil => intro done; rw [List.append_nil]; rfl
    | cons r more ih =>
        intro done
        rw [List.foldl_cons, ← ofResults_concat, ← ih, List.append_assoc, List.singleton_append]
  exact hrun results []

/-! ## counts that agree -/

/-- The counts of a summary agree with each other. -/
structure Consistent (s : Summary) : Prop where
  total : s.score.total = (s.categories.map fun e => e.2.total).sum
  correct : s.score.correct = (s.categories.map fun e => e.2.correct).sum
  failures : s.score.correct + s.failures.length = s.score.total
  /-- A case asks for a command or for text. -/
  cases : s.command.total + s.textCases = s.score.total
  /-- Cases that ask for a command are good only if they are answered with one. -/
  commands : s.command.correct ≤ s.commands
  /-- All other cases are good only if they are answered in text alone. -/
  texts : s.score.correct ≤ s.command.correct + s.texts

theorem consistent_empty : empty.Consistent := ⟨rfl, rfl, rfl, rfl, Nat.le_refl 0, Nat.le_refl 0⟩

/-- A number that a result adds to the score of its category is added to the sum over all. -/
theorem sum_recordIn {f : Score → Nat} {k : Nat} {correct : Bool} (hzero : f ⟨0, 0⟩ = 0)
    (hrecord : ∀ s, f (s.record correct) = f s + k) (name : String)
    (scores : List (String × Score)) :
    ((recordIn name correct scores).map fun e => f e.2).sum =
      (scores.map fun e => f e.2).sum + k := by
  induction scores with
  | nil => simp [recordIn, hrecord, hzero]
  | cons e scores ih =>
      obtain ⟨n, s⟩ := e
      rw [recordIn]
      split
      · simp only [List.map_cons, List.sum_cons, hrecord, hzero]
        omega
      · split
        · simp only [List.map_cons, List.sum_cons, hrecord]
          omega
        · simp only [List.map_cons, List.sum_cons, ih]
          omega

theorem total_command_record (s : Summary) (r : Scored) :
    (s.record r).command.total = s.command.total + if asksForCommand r then 1 else 0 := by
  rw [record]
  cases asksForCommand r <;> rfl

theorem correct_command_record (s : Summary) (r : Scored) :
    (s.record r).command.correct =
      s.command.correct + if asksForCommand r && r.correct then 1 else 0 := by
  rw [record]
  cases asksForCommand r <;> rfl

theorem length_failures_record (s : Summary) (r : Scored) :
    (s.record r).failures.length = s.failures.length + if r.correct then 0 else 1 := by
  rw [record, List.length_append]
  cases r.correct <;> rfl

/-- **One more result keeps the counts in order.** -/
theorem Consistent.record {s : Summary} (h : s.Consistent) {r : Scored} (hr : r.IsFair) :
    (s.record r).Consistent := by
  have htotal : (s.record r).score.total = s.score.total + 1 := rfl
  have hcorrect : (s.record r).score.correct = s.score.correct + if r.correct then 1 else 0 := rfl
  constructor
  case total =>
    rw [htotal, h.total]
    exact (sum_recordIn rfl (fun _ => rfl) _ _).symm
  case correct =>
    rw [hcorrect, h.correct]
    exact (sum_recordIn rfl (fun _ => rfl) _ _).symm
  case failures =>
    have hfailures := h.failures
    rw [hcorrect, length_failures_record, htotal]
    split <;> omega
  case cases =>
    have htextCases : (s.record r).textCases =
        s.textCases + if !asksForCommand r then 1 else 0 := rfl
    have hcases := h.cases
    rw [total_command_record, htextCases, htotal]
    cases asksForCommand r <;> simp <;> omega
  case commands =>
    have hcommands : (s.record r).commands =
        s.commands + if r.observed.command.isSome then 1 else 0 := rfl
    have hle := h.commands
    rw [correct_command_record, hcommands]
    split
    · next hgood =>
        obtain ⟨hasks, hgood⟩ := Bool.and_eq_true_iff.mp hgood
        rw [if_pos (hr.isSome_command hgood hasks)]
        omega
    · omega
  case texts =>
    have htexts : (s.record r).texts =
        s.texts + if !asksForCommand r && isText r.observed then 1 else 0 := rfl
    have hle := h.texts
    rw [hcorrect, correct_command_record, htexts]
    -- a good result counts on the right among the commands or, if it asks for none, the texts
    cases hgood : r.correct with
    | false => simp only [Bool.and_false, Bool.false_eq_true, if_false]; omega
    | true =>
        cases hasks : asksForCommand r with
        | true => simp only [Bool.and_self, if_true]; omega
        | false =>
            rw [hr.isText hgood hasks]
            simp only [Bool.false_and, Bool.not_false, Bool.and_self, Bool.false_eq_true, if_true,
              if_false]
            omega

theorem consistent_ofResults {results : List Scored} (h : ∀ r ∈ results, r.IsFair) :
    (ofResults results).Consistent := by
  have hrun : ∀ (more : List Scored) (s : Summary), (∀ r ∈ more, r.IsFair) → s.Consistent →
      (more.foldl Summary.record s).Consistent := by
    intro more
    induction more with
    | nil => exact fun _ _ hs => hs
    | cons r more ih =>
        intro s hmore hs
        exact ih _ (fun r' hr' => hmore r' (List.mem_cons_of_mem r hr'))
          (hs.record (hmore r List.mem_cons_self))
  rw [ofResults_eq_foldl]
  exact hrun results empty h consistent_empty

/-! ## shares -/

theorem share_mul {part whole : Nat} (h : part ≤ whole) :
    (share part whole : ℚ) * whole = part := by
  rw [share]
  split
  · next hzero =>
      subst hzero
      rw [Nat.le_zero.mp h, Nat.cast_zero, zero_mul]
  · next hne => exact div_mul_cancel₀ _ (Nat.cast_ne_zero.mpr hne)

theorem share_le {part part' : Nat} (h : part ≤ part') (whole : Nat) :
    (share part whole : ℚ) ≤ share part' whole := by
  rw [share, share]
  split
  · exact le_rfl
  · exact div_le_div_of_nonneg_right (Nat.cast_le.mpr h) (Nat.cast_nonneg _)

/-- The score of the cases that ask for text. -/
def textScore (results : List Scored) : Score :=
  .ofResults (results.filter fun r => !asksForCommand r)

/-- A case asks for a command or for text, so the scores of both kinds make up that of all. -/
theorem command_add_textScore (results : List Scored) :
    (ofResults results).command + textScore results = (ofResults results).score :=
  (Score.ofResults_append ..).symm.trans
    (Score.ofResults_of_perm (List.filter_append_perm asksForCommand results))

/-- What a summary says of results: its counts agree, good results are answered in the way that
their cases ask for, and so are shares of them, which are taken exactly. -/
structure Accounts (s : Summary) (results : List Scored) : Prop where
  onePass : s = results.foldl record empty
  consistent : s.Consistent
  failures : s.failures = results.filter fun r => !r.correct
  answered : ∀ r ∈ results, r.correct = true →
    if r.case.expect.isSome then r.observed.command.isSome = true
    else r.observed.text.isSome = true ∧ r.observed.command = none
  commandRate : (s.commandAccuracy : ℚ) * s.command.total ≤ s.commandRate * s.score.total
  textCases : (textScore results).total = s.textCases
  textRate : share (textScore results).correct (textScore results).total ≤ (s.textRate : ℚ)

theorem total_textScore (results : List Scored) :
    (textScore results).total = (ofResults results).textCases :=
  List.countP_eq_length_filter.symm

theorem accounts_ofResults {results : List Scored} (h : ∀ r ∈ results, r.IsFair) :
    (ofResults results).Accounts results where
  onePass := ofResults_eq_foldl results
  consistent := consistent_ofResults h
  failures := rfl
  answered r hr hcorrect := by
    split
    · next hasks => exact (h r hr).isSome_command hcorrect hasks
    · next hasks =>
        have htext := (h r hr).isText hcorrect (Bool.eq_false_iff.mpr hasks)
        obtain ⟨hnone, hsome⟩ := Bool.and_eq_true_iff.mp htext
        exact ⟨hsome, Option.isNone_iff_eq_none.mp hnone⟩
  commandRate := by
    have hcommand : (ofResults results).command.correct ≤ (ofResults results).command.total :=
      List.countP_le_length
    have hcommands : (ofResults results).commands ≤ (ofResults results).score.total :=
      List.countP_le_length
    rw [commandAccuracy, commandRate, share_mul hcommand, share_mul hcommands]
    exact Nat.cast_le.mpr (consistent_ofResults h).commands
  textCases := total_textScore results
  textRate := by
    have hcorrect := congrArg Score.correct (command_add_textScore results)
    have htexts := (consistent_ofResults h).texts
    rw [Score.correct_add] at hcorrect
    rw [total_textScore]
    exact share_le (by omega) _

/-! ## results side by side -/

/-- A summary that counts what two others count together. -/
structure Sums (s a b : Summary) : Prop where
  score : s.score = a.score + b.score
  command : s.command = a.command + b.command
  commands : s.commands = a.commands + b.commands
  textCases : s.textCases = a.textCases + b.textCases
  texts : s.texts = a.texts + b.texts
  categories : ∀ name, s.categories.lookup name =
    Option.merge (· + ·) (a.categories.lookup name) (b.categories.lookup name)
  failures : s.failures = a.failures ++ b.failures

theorem lookup_categories (results : List Scored) (name : String) :
    (ofResults results).categories.lookup name =
      if name ∈ results.map (·.case.category) then
        some (Score.ofResults (inCategory name results)) else none := by
  rw [ofResults]
  split
  · next hmem =>
      exact List.lookup_graph (fun n => Score.ofResults (inCategory n results))
        (Text.Ordered.mem_ofList.mpr hmem)
  · next hmem =>
      refine List.lookup_eq_none_iff.mpr fun e he => ?_
      obtain ⟨n, hn, rfl⟩ := List.mem_map.mp he
      refine bne_iff_ne.mpr ?_
      rintro rfl
      exact hmem (Text.Ordered.mem_ofList.mp hn)

/-- **Summaries of results side by side add up.** -/
theorem sums_ofResults (xs ys : List Scored) :
    (ofResults (xs ++ ys)).Sums (ofResults xs) (ofResults ys) where
  score := Score.ofResults_append xs ys
  command := (congrArg Score.ofResults (List.filter_append ..)).trans (Score.ofResults_append ..)
  commands := List.countP_append
  textCases := List.countP_append
  texts := List.countP_append
  failures := List.filter_append ..
  categories name := by
    simp only [lookup_categories, List.map_append, List.mem_append, inCategory_append,
      Score.ofResults_append]
    by_cases hx : name ∈ xs.map (·.case.category)
    · by_cases hy : name ∈ ys.map (·.case.category)
      · simp only [hx, hy, or_self, if_true, Option.merge]
      · have hnone := ofResults_inCategory_of_notMem hy
        simp only [hx, hy, or_false, if_true, if_false, Option.merge, hnone]
        rfl
    · have hnone := ofResults_inCategory_of_notMem hx
      by_cases hy : name ∈ ys.map (·.case.category)
      · simp only [hx, hy, false_or, if_true, if_false, Option.merge, hnone, Score.zero_add]
      · simp only [hx, hy, or_self, if_false, Option.merge]

/-! ## results in another order -/

theorem ofList_of_perm {names names' : List String} (h : names.Perm names') :
    Text.Ordered.ofList names = Text.Ordered.ofList names' := by
  have hsorted := Text.Ordered.pairwise_ofList names
  have hsorted' := Text.Ordered.pairwise_ofList names'
  -- two increasing lists of the same names
  refine List.Perm.eq_of_pairwise (fun a b _ _ hab hba => absurd hba hab.asymm) hsorted hsorted' ?_
  refine (List.perm_ext_iff_of_nodup (hsorted.imp ne_of_lt) (hsorted'.imp ne_of_lt)).mpr fun n => ?_
  rw [Text.Ordered.mem_ofList, Text.Ordered.mem_ofList]
  exact h.mem_iff

/-- **Only the failures depend on the order of the results.** -/
theorem ofResults_of_perm {xs ys : List Scored} (h : xs.Perm ys) :
    ofResults ys = { ofResults xs with failures := (ofResults ys).failures } ∧
      (ofResults ys).failures.Perm (ofResults xs).failures := by
  refine ⟨?_, (h.symm.filter _)⟩
  have hnames := ofList_of_perm (h.symm.map (·.case.category))
  have hcategory : ∀ n, Score.ofResults (inCategory n ys) = Score.ofResults (inCategory n xs) :=
    fun n => Score.ofResults_of_perm (h.symm.filter _)
  simp only [ofResults, hnames, hcategory, Score.ofResults_of_perm h.symm,
    Score.ofResults_of_perm (h.symm.filter asksForCommand), h.symm.countP_eq]

end Summary

/-! ## runs -/

section

variable {m : Type → Type} [Monad m]

/-- What a run observes for a case. -/
def observe (h : Host m) (server : String) (c : Case) : m (Case × Observed) := do
  let response ← h.post ⟨endpoint server, c.toQuery.toJson.compact⟩
  return (c, .ofResponse response)

/-- Cases with what was observed for them, scored. -/
def scored (pairs : List (Case × Observed)) : List Scored := pairs.map fun (c, o) => c.score o

/-- **A run scores what it observes**, case by case. -/
theorem run_eq [LawfulMonad m] (h : Host m) (server : String) (cases : List Case) :
    run h server cases = scored <$> cases.mapM (observe h server) := by
  rw [run]
  induction cases with
  | nil => simp [scored]
  | cons c cases ih => simp [List.mapM_cons, ih, ask, observe, scored]

end

theorem isFair_of_mem_scored {pairs : List (Case × Observed)} {r : Scored} (h : r ∈ scored pairs) :
    r.IsFair := by
  obtain ⟨_, _, rfl⟩ := List.mem_map.mp h
  rfl

/-- **What a summary says of a run.**  Whatever is observed for the cases, the counts of the summary
agree with each other and with the results; those of a run that is put together of two are their
sums, and in another order of the cases nothing changes but the order of the failures. -/
theorem summary_of_scored :
    (∀ {m : Type → Type} [Monad m] [LawfulMonad m] (h : Host m) (server : String)
      (cases : List Case), run h server cases = scored <$> cases.mapM (observe h server)) ∧
    ∀ pairs : List (Case × Observed),
      let s := Summary.ofResults (scored pairs)
      s.Accounts (scored pairs) ∧
        (∀ more, (Summary.ofResults (scored (pairs ++ more))).Sums s
          (Summary.ofResults (scored more))) ∧
        ∀ pairs', pairs.Perm pairs' →
          let s' := Summary.ofResults (scored pairs')
          s' = { s with failures := s'.failures } ∧ s'.failures.Perm s.failures := by
  refine ⟨run_eq, fun pairs => ⟨?_, fun more => ?_, fun pairs' h => ?_⟩⟩
  · exact Summary.accounts_ofResults fun r hr => isFair_of_mem_scored hr
  · rw [scored, List.map_append]
    exact Summary.sums_ofResults (scored pairs) (scored more)
  · exact Summary.ofResults_of_perm (h.map _)

/-- Two cases the other way round, one of which is answered with a command and asks for text; and a
run of both against a server that cannot be reached. -/
theorem summary_of_scored_swapped :
    let disks : Case := ⟨"list disks", some ["lsblk"], "disk"⟩
    let greeting : Case := ⟨"hello", none, "chat"⟩
    let pairs := [(disks, { command := some "lsblk" }), (greeting, { command := some "lsblk" })]
    let pairs' := pairs.reverse
    let h := Host.ofDirectory [] "noon"
    pairs.Perm pairs' ∧
      (Summary.ofResults (scored pairs')).failures.Perm
        (Summary.ofResults (scored pairs)).failures ∧
      run h "http://127.0.0.1:1" [disks, greeting] =
        scored <$> [disks, greeting].mapM (observe h "http://127.0.0.1:1") := by
  intro disks greeting pairs pairs' h
  have hperm : pairs.Perm pairs' := (List.reverse_perm pairs).symm
  exact ⟨hperm, ((summary_of_scored.2 pairs).2.2 pairs' hperm).2,
    summary_of_scored.1 h "http://127.0.0.1:1" [disks, greeting]⟩

end InstallAssistant.Evaluation
