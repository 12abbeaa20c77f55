import InstallAssistant.Text.Blank
import InstallAssistant.Text.Lines
import Mathlib.Data.List.DropRight
import Mathlib.Data.List.Infix

/-!
# InstallAssistant.Proofs.Text

Laws of trimming, of searching and of line breaks, over lists of characters:

* trimming leaves a trimmed text alone (`trimChars_of_isTrimmed`), does not see
  blanks around a text (`trimChars_append_blank`), and always yields a trimmed
  text (`isTrimmed_trimChars`);
* a text contains what is a part of it (`contains_eq_false_iff`);
* unifying line breaks changes a text exactly when a return stands right before
  a line feed (`unifyBreaks_eq_self_iff`), and never lengthens it;
* the lines of a text are the texts that its breaks end (`lines_flatMap`).
-/

namespace InstallAssistant.Text

/-! ## trimmed texts -/

/-- A text with no blank character at either end. -/
def IsTrimmed (s : List Char) : Prop :=
  (∀ c ∈ s.head?, isBlank c = false) ∧ ∀ c ∈ s.getLast?, isBlank c = false

theorem trimStart_of_head {s : List Char} (h : ∀ c ∈ s.head?, isBlank c = false) :
    trimStart s = s := by
  cases s with
  | nil => rfl
  | cons c cs =>
      have hc : isBlank c = false := h c rfl
      simp [trimStart, hc]

theorem trimEnd_of_getLast {s : List Char} (h : ∀ c ∈ s.getLast?, isBlank c = false) :
    trimEnd s = s := by
  have hr : trimStart s.reverse = s.reverse := by
    apply trimStart_of_head
    rwa [List.head?_reverse]
  rw [trimEnd, ← trimStart, hr, List.reverse_reverse]

theorem trimChars_of_isTrimmed {s : List Char} (h : IsTrimmed s) : trimChars s = s := by
  rw [trimChars, trimStart_of_head h.1, trimEnd_of_getLast h.2]

/-! ## blanks around a text -/

theorem isBlank_break : ∀ c ∈ ['\n'], isBlank c = true := List.forall_mem_singleton.mpr rfl

theorem trimStart_blank_append {a : List Char} (ha : ∀ c ∈ a, isBlank c = true) (s : List Char) :
    trimStart (a ++ s) = trimStart s := by
  have hnil : a.dropWhile isBlank = [] := List.dropWhile_eq_nil_iff.mpr ha
  rw [trimStart, List.dropWhile_append, hnil]
  rfl

theorem trimEnd_append_blank {b : List Char} (hb : ∀ c ∈ b, isBlank c = true) (s : List Char) :
    trimEnd (s ++ b) = trimEnd s := by
  have hr : trimStart (b.reverse ++ s.reverse) = trimStart s.reverse :=
    trimStart_blank_append (fun c hc => hb c (List.mem_reverse.mp hc)) _
  rw [trimEnd, List.reverse_append, ← trimStart, hr]
  rfl

/-- Blanks before and after a text are not part of what trimming keeps. -/
theorem trimChars_append_blank {a b : List Char} (ha : ∀ c ∈ a, isBlank c = true)
    (hb : ∀ c ∈ b, isBlank c = true) (s : List Char) :
    trimChars (a ++ s ++ b) = trimChars s := by
  have hstart : trimStart (a ++ s ++ b) = trimStart (s ++ b) := by
    rw [List.append_assoc, trimStart_blank_append ha]
  rw [trimChars, hstart, trimChars]
  by_cases hs : s.dropWhile isBlank = []
  · have hsb : (s ++ b).dropWhile isBlank = [] := by
      rw [List.dropWhile_append, hs, List.dropWhile_eq_nil_iff.mpr hb]
      rfl
    rw [trimStart, trimStart, hsb, hs]
  · have hsb : trimStart (s ++ b) = trimStart s ++ b := by
      rw [trimStart, List.dropWhile_append, if_neg (by simpa using hs), trimStart]
    rw [hsb, trimEnd_append_blank hb]

theorem trimChars_cons_blank {c : Char} (h : isBlank c = true) (s : List Char) :
    trimChars (c :: s) = trimChars s := by
  rw [trimChars, trimStart, List.dropWhile_cons_of_pos h]
  rfl

/-! ## what trimming keeps -/

theorem trimStart_isSuffix (s : List Char) : trimStart s <:+ s := List.dropWhile_suffix _

theorem trimEnd_isPrefix (s : List Char) : trimEnd s <+: s := List.rdropWhile_prefix _ s

theorem trimChars_isInfix (s : List Char) : trimChars s <:+: s :=
  (trimEnd_isPrefix _).isInfix.trans (trimStart_isSuffix s).isInfix

theorem length_trimChars_le (s : List Char) : (trimChars s).length ≤ s.length :=
  (trimChars_isInfix s).length_le

/-- What is trimmed away is blank. -/
theorem exists_blanks_trimChars (s : List Char) :
    ∃ a b, s = a ++ trimChars s ++ b ∧ (∀ c ∈ a, isBlank c = true) ∧ ∀ c ∈ b, isBlank c = true := by
  have hstart : s.takeWhile isBlank ++ trimStart s = s := List.takeWhile_append_dropWhile
  have hend : trimChars s ++ (trimStart s).rtakeWhile isBlank = trimStart s :=
    List.rdropWhile_append_rtakeWhile
  refine ⟨s.takeWhile isBlank, (trimStart s).rtakeWhile isBlank, ?_, ?_, ?_⟩
  · rw [List.append_assoc, hend, hstart]
  · exact fun c hc => List.mem_takeWhile_imp hc
  · exact fun c hc => List.mem_rtakeWhile_imp hc

/-- Trimming is done: nothing blank is left at either end. -/
theorem isTrimmed_trimChars (s : List Char) : IsTrimmed (trimChars s) := by
  have hhead : ∀ c ∈ (trimStart s).head?, isBlank c = false := by
    intro c hc
    have hne : trimStart s ≠ [] := by
      intro h
      simp [h] at hc
    rw [List.head?_eq_some_head hne] at hc
    cases hc
    exact List.head_dropWhile_not isBlank hne
  constructor
  · intro c hc
    obtain ⟨rest, hrest⟩ := trimEnd_isPrefix (trimStart s)
    apply hhead
    rw [← hrest, List.head?_append]
    rw [trimChars] at hc
    rw [hc]
    rfl
  · intro c hc
    have hne : trimChars s ≠ [] := by
      intro h
      simp [h] at hc
    rw [List.getLast?_eq_some_getLast hne] at hc
    cases hc
    exact Bool.eq_false_iff.mpr (List.rdropWhile_last_not isBlank (trimStart s) hne)

/-- Only blanks are trimmed away altogether. -/
theorem isBlank_of_trimChars_eq_nil {s : List Char} (h : trimChars s = []) :
    ∀ c ∈ s, isBlank c = true := by
  have hblank : ∀ c ∈ trimStart s, isBlank c = true := List.rdropWhile_eq_nil_iff.mp h
  have hstart : trimStart s = [] := by
    by_contra hne
    have hhead : isBlank ((trimStart s).head hne) = false := List.head_dropWhile_not isBlank hne
    rw [hblank _ (List.head_mem hne)] at hhead
    contradiction
  exact List.dropWhile_eq_nil_iff.mp hstart

/-- A beginning of a text that is trimmed at its start stays a beginning of it when trimmed. -/
theorem trimChars_isPrefix {s : List Char} (h : ∀ c ∈ s.head?, isBlank c = false) :
    trimChars s <+: s := by
  rw [trimChars, trimStart_of_head h]
  exact trimEnd_isPrefix s

/-! ## texts that are not blank -/

theorem nonBlank?_eq_some_iff {s t : String} :
    nonBlank? s = some t ↔ trimChars s.toList = t.toList ∧ t.toList ≠ [] := by
  have ht : trim s = t ↔ trimChars s.toList = t.toList := by
    rw [trim, ← String.toList_inj, String.toList_ofList]
  have hempty : (trim s).isEmpty = true ↔ trimChars s.toList = [] := by
    rw [String.isEmpty_iff, trim, ← String.toList_inj, String.toList_ofList]
    rfl
  unfold nonBlank?
  by_cases h : trimChars s.toList = []
  · rw [if_pos (hempty.mpr h), h]
    constructor
    · intro hn
      contradiction
    · rintro ⟨h₁, h₂⟩
      exact absurd h₁.symm h₂
  · rw [if_neg (fun he => h (hempty.mp he)), Option.some.injEq, ht]
    constructor
    · intro he
      exact ⟨he, he ▸ h⟩
    · intro he
      exact he.1

theorem nonBlank?_eq_none_iff {s : String} : nonBlank? s = none ↔ trimChars s.toList = [] := by
  rw [Option.eq_none_iff_forall_ne_some]
  constructor
  · intro h
    by_contra hne
    have hlist : (String.ofList (trimChars s.toList)).toList = trimChars s.toList :=
      String.toList_ofList
    exact h _ (nonBlank?_eq_some_iff.mpr ⟨hlist.symm, by rwa [hlist]⟩)
  · intro h t ht
    obtain ⟨h₁, h₂⟩ := nonBlank?_eq_some_iff.mp ht
    exact h₂ (h₁ ▸ h)

/-- What is kept of a text that is not blank is trimmed, and not empty. -/
theorem isTrimmed_of_nonBlank? {s t : String} (h : nonBlank? s = some t) :
    IsTrimmed t.toList ∧ t.toList ≠ [] := by
  obtain ⟨h₁, h₂⟩ := nonBlank?_eq_some_iff.mp h
  exact ⟨h₁ ▸ isTrimmed_trimChars s.toList, h₂⟩

theorem nonBlank?_of_isTrimmed {t : String} (h : IsTrimmed t.toList) (hne : t.toList ≠ []) :
    nonBlank? t = some t :=
  nonBlank?_eq_some_iff.mpr ⟨trimChars_of_isTrimmed h, hne⟩

/-- A text is kept as it is exactly when it is trimmed and not empty. -/
theorem nonBlank?_eq_self_iff {t : String} : nonBlank? t = some t ↔ IsTrimmed t.toList ∧ t ≠ "" := by
  have hempty : t.toList ≠ [] ↔ t ≠ "" := by rw [Ne, Ne, ← String.toList_inj]; rfl
  constructor
  · intro h
    obtain ⟨htrimmed, hne⟩ := isTrimmed_of_nonBlank? h
    exact ⟨htrimmed, hempty.mp hne⟩
  · intro h
    exact nonBlank?_of_isTrimmed h.1 (hempty.mpr h.2)

/-- What is kept once is kept as it is. -/
theorem nonBlank?_of_eq_some {s t : String} (h : nonBlank? s = some t) : nonBlank? t = some t := by
  obtain ⟨htrimmed, hne⟩ := isTrimmed_of_nonBlank? h
  exact nonBlank?_of_isTrimmed htrimmed hne

/-! ## characters of a text -/

/-- A character that is not in the list that a text is made of is not in the text. -/
theorem notMem_toList_ofList {c : Char} {s : List Char} (h : s.elem c = false) :
    c ∉ (String.ofList s).toList := by
  rw [String.toList_ofList]
  simpa using h

theorem notMem_toList_append {c : Char} {s t : String} (hs : c ∉ s.toList) (ht : c ∉ t.toList) :
    c ∉ (s ++ t).toList := by
  rw [String.toList_append, List.mem_append, not_or]
  exact ⟨hs, ht⟩

theorem notMem_toList_join {c : Char} {sep : String} {parts : List String}
    (hsep : c ∉ sep.toList) (h : ∀ s ∈ parts, c ∉ s.toList) : c ∉ (join sep parts).toList := by
  induction parts with
  | nil => simp [join]
  | cons s rest ih =>
      have hs := h s List.mem_cons_self
      have hrest := ih fun t ht => h t (List.mem_cons_of_mem s ht)
      cases rest with
      | nil => rwa [join, String.intercalate_singleton]
      | cons t ts =>
          rw [join, String.intercalate_cons_cons]
          exact notMem_toList_append (notMem_toList_append hs hsep) hrest

/-! ## searching -/

theorem cut?_eq_none_iff {needle s : List Char} : cut? needle s = none ↔ ¬ needle <:+: s := by
  induction s with
  | nil =>
      cases needle with
      | nil => simp [cut?, after?]
      | cons c needle => simp [cut?, after?]
  | cons c s ih =>
      rw [cut?, List.infix_cons_iff, not_or, ← after?_eq_none_iff]
      cases after? needle (c :: s) with
      | some rest => simp
      | none => simp [ih]

theorem contains_eq_false_iff {needle s : List Char} :
    contains needle s = false ↔ ¬ needle <:+: s := by
  rw [contains, ← cut?_eq_none_iff, Option.isSome_eq_false_iff, Option.isNone_iff_eq_none]

/-! ## line breaks -/

/-- A line break of two characters, as it is written before breaks are unified. -/
def breakPair : List Char := ['\r', '\n']

theorem unifyBreaks_cons {c : Char} {s : List Char} (h : c ≠ '\r' ∨ s.head? ≠ some '\n') :
    unifyBreaks (c :: s) = c :: unifyBreaks s := by
  rw [unifyBreaks.eq_def]
  split
  · next heq =>
      injection heq with h₁ h₂
      subst h₁
      subst h₂
      simp at h
  · next heq =>
      injection heq with h₁ h₂
      rw [h₁, h₂]
  · contradiction

/-- Breaks are unified part by part, unless a pair stands across the parts. -/
theorem unifyBreaks_append {x y : List Char} (h : x.getLast? ≠ some '\r' ∨ y.head? ≠ some '\n') :
    unifyBreaks (x ++ y) = unifyBreaks x ++ unifyBreaks y := by
  fun_induction unifyBreaks x with
  | case1 rest ih =>
      have hrest : rest.getLast? ≠ some '\r' ∨ y.head? ≠ some '\n' := by
        refine h.imp_left fun hl hr => hl ?_
        rw [List.getLast?_cons_cons, List.getLast?_cons, hr]
        rfl
      simp only [List.cons_append, unifyBreaks, ih hrest]
  | case2 c rest hpair ih =>
      have hrest : rest.getLast? ≠ some '\r' ∨ y.head? ≠ some '\n' := by
        refine h.imp_left fun hl hr => hl ?_
        rw [List.getLast?_cons, hr]
        rfl
      have hc : c ≠ '\r' ∨ (rest ++ y).head? ≠ some '\n' := by
        cases rest with
        | nil => simpa using h
        | cons d ds =>
            by_contra hcon
            simp only [List.cons_append, List.head?_cons, not_or, not_not,
              Option.some.injEq] at hcon
            exact hpair ds hcon.1 (by rw [hcon.2])
      rw [List.cons_append, unifyBreaks_cons hc, ih hrest, List.cons_append]
  | case3 => rfl

theorem length_unifyBreaks_le (s : List Char) : (unifyBreaks s).length ≤ s.length := by
  fun_induction unifyBreaks s with
  | case1 rest ih =>
      simp only [List.length_cons]
      omega
  | case2 c rest hpair ih =>
      simp only [List.length_cons]
      omega
  | case3 => exact Nat.le_refl _

theorem unifyBreaks_of_not_mem {s : List Char} (h : '\r' ∉ s) : unifyBreaks s = s := by
  induction s with
  | nil => rfl
  | cons c cs ih =>
      simp only [List.mem_cons, not_or] at h
      rw [unifyBreaks_cons (.inl (Ne.symm h.1)), ih h.2]

/-- Unifying breaks leaves exactly the texts alone that have no pair. -/
theorem unifyBreaks_eq_self_iff {s : List Char} : unifyBreaks s = s ↔ ¬ breakPair <:+: s := by
  constructor
  · rintro h ⟨front, rest, rfl⟩
    have hlen : (unifyBreaks (front ++ breakPair ++ rest)).length <
        (front ++ breakPair ++ rest).length := by
      have hsplit : unifyBreaks (front ++ breakPair ++ rest) =
          unifyBreaks front ++ '\n' :: unifyBreaks rest := by
        rw [List.append_assoc, unifyBreaks_append (.inr (by simp [breakPair]))]
        rfl
      have h₁ := length_unifyBreaks_le front
      have h₂ := length_unifyBreaks_le rest
      rw [hsplit]
      simp only [List.length_append, List.length_cons, breakPair, List.length_nil]
      omega
    rw [h] at hlen
    exact Nat.lt_irrefl _ hlen
  · intro h
    induction s with
    | nil => rfl
    | cons c cs ih =>
        have hcs : ¬ breakPair <:+: cs := fun hin => h (hin.trans (List.suffix_cons c cs).isInfix)
        have hc : c ≠ '\r' ∨ cs.head? ≠ some '\n' := by
          by_contra hcon
          simp only [not_or, not_not] at hcon
          obtain ⟨rfl, hhead⟩ := hcon
          obtain ⟨rest, rfl⟩ := List.head?_eq_some_iff.mp hhead
          exact h ⟨[], rest, rfl⟩
        rw [unifyBreaks_cons hc, ih hcs]

/-- A text that unifying breaks does not shorten is left alone. -/
theorem unifyBreaks_of_length_le {s : List Char} (h : s.length ≤ (unifyBreaks s).length) :
    unifyBreaks s = s := by
  fun_induction unifyBreaks s with
  | case1 rest ih =>
      have := length_unifyBreaks_le rest
      simp only [List.length_cons] at h
      omega
  | case2 c rest hpair ih =>
      simp only [List.length_cons, Nat.add_le_add_iff_right] at h
      rw [ih h]
  | case3 => rfl

/-! ## lines -/

theorem linesFrom_break {current t : List Char} (h : '\n' ∉ t) (rest : List Char) :
    linesFrom current (t ++ '\n' :: rest) =
      dropBreakReturn (current.reverse ++ t) :: linesFrom [] rest := by
  induction t generalizing current with
  | nil => simp [linesFrom]
  | cons c t ih =>
      simp only [List.mem_cons, not_or] at h
      have hc : c = '\n' → False := fun heq => h.1 heq.symm
      rw [List.cons_append, linesFrom, ih h.2, List.reverse_cons, List.append_assoc,
        List.singleton_append]
      exact hc

theorem dropBreakReturn_of_notMem {line : List Char} (h : '\r' ∉ line) :
    dropBreakReturn line = line := by
  unfold dropBreakReturn
  split
  · next heq => exact absurd (List.mem_reverse.mp (heq ▸ List.mem_cons_self)) h
  · rfl

/-- Texts that are ended by breaks, and hold none, are the lines. -/
theorem lines_flatMap {texts : List (List Char)} (h : ∀ t ∈ texts, '\n' ∉ t ∧ '\r' ∉ t) :
    lines (texts.flatMap (· ++ ['\n'])) = texts := by
  induction texts with
  | nil => rfl
  | cons t texts ih =>
      obtain ⟨⟨hbreak, hreturn⟩, htexts⟩ := List.forall_mem_cons.mp h
      rw [List.flatMap_cons, List.append_assoc, List.singleton_append, lines,
        linesFrom_break hbreak, ← lines, ih htexts, List.reverse_nil, List.nil_append,
        dropBreakReturn_of_notMem hreturn]

end InstallAssistant.Text
