import InstallAssistant.Proofs.Text
import Mathlib.Data.List.Infix

/-!
# InstallAssistant.Proofs.Text.Occurrence

Where a needle is spelled in a text, and how often.

* Texts side by side hold a needle if one of them does, or if it is spelled across
  the border (`isInfix_append_iff`), and as often as both of them do, if it is not
  (`occurrences_append`).  It is not when a character before the border does not
  belong to it (`apart_of_last`), or when the one behind the border can only begin it
  (`apart_of_head`).
* What stands before the first needle in a text is determined by the text
  (`append_needle_inj`), and a cut at the needle finds it (`cut?_eq_some_iff`).
-/

namespace InstallAssistant.Text

/-! ## counting -/

/-- How many places of a text a needle is spelled at, whether or not they overlap. -/
def occurrences (needle s : List Char) : Nat := s.tails.countP needle.isPrefixOf

section

variable {c : Char} {needle x y : List Char}

theorem occurrences_nil (hneedle : needle ≠ []) : occurrences needle [] = 0 := by
  cases needle with
  | nil => contradiction
  | cons c needle => rfl

theorem occurrences_cons (needle s : List Char) (c : Char) :
    occurrences needle (c :: s) = occurrences needle s + if needle <+: c :: s then 1 else 0 := by
  simp only [occurrences, List.tails, List.countP_cons, List.isPrefixOf_iff_prefix]

theorem occurrences_eq_zero_iff (hneedle : needle ≠ []) :
    occurrences needle x = 0 ↔ ¬ needle <:+: x := by
  induction x with
  | nil => simp [occurrences_nil hneedle, hneedle]
  | cons c x ih =>
      rw [occurrences_cons, List.infix_cons_iff, not_or, ← ih]
      by_cases hpre : needle <+: c :: x <;> simp [hpre]

/-- A needle is not spelled in a text that lacks one of its characters. -/
theorem occurrences_of_notMem (hc : c ∈ needle) (h : c ∉ x) : occurrences needle x = 0 := by
  rw [occurrences_eq_zero_iff (List.ne_nil_of_mem hc)]
  exact fun hin => h (hin.subset hc)

/-! ## texts side by side -/

/-- The needle is not spelled across the border of two texts. -/
def Apart (needle x y : List Char) : Prop :=
  ∀ a b, needle = a ++ b → a ≠ [] → b ≠ [] → a <:+ x → ¬ b <+: y

/-- **Texts side by side** hold a needle as often as both of them. -/
theorem occurrences_append (hneedle : needle ≠ []) (h : Apart needle x y) :
    occurrences needle (x ++ y) = occurrences needle x + occurrences needle y := by
  induction x with
  | nil => rw [List.nil_append, occurrences_nil hneedle, Nat.zero_add]
  | cons c x ih =>
      have hx : Apart needle x y := fun a b hab ha hb hax =>
        h a b hab ha hb (hax.trans (List.suffix_cons c x))
      -- a needle at the start of the whole would have to end in the first text
      have hpre : needle <+: c :: (x ++ y) ↔ needle <+: c :: x := by
        constructor
        · intro hwhole
          rcases List.prefix_or_prefix_of_prefix hwhole (List.prefix_append (c :: x) y) with
            hin | ⟨b, rfl⟩
          · exact hin
          · have hb : b <+: y := (List.prefix_append_right_inj (c :: x)).mp hwhole
            by_cases hnil : b = []
            · rw [hnil, List.append_nil]
            · exact absurd hb (h _ b rfl (List.cons_ne_nil c x) hnil List.suffix_rfl)
        · intro hin
          exact hin.trans (List.prefix_append (c :: x) y)
      rw [List.cons_append, occurrences_cons, occurrences_cons, ih hx]
      simp only [hpre]
      omega

/-- A needle in texts side by side is in one of them, or is spelled across their border. -/
theorem isInfix_append_iff :
    needle <:+: x ++ y ↔ needle <:+: x ∨ needle <:+: y ∨ ¬ Apart needle x y := by
  rw [List.infix_append_iff]
  constructor
  · rintro (hx | hy | ⟨a, b, hab, hax, hby⟩)
    · exact .inl hx
    · exact .inr (.inl hy)
    · by_cases ha : a = []
      · rw [ha, List.nil_append] at hab
        exact .inr (.inl (hab ▸ hby.isInfix))
      · by_cases hb : b = []
        · rw [hb, List.append_nil] at hab
          exact .inl (hab ▸ hax.isInfix)
        · exact .inr (.inr fun hapart => hapart a b hab ha hb hax hby)
  · rintro (hx | hy | hacross)
    · exact .inl hx
    · exact .inr (.inl hy)
    · simp only [Apart] at hacross
      push Not at hacross
      obtain ⟨a, b, hab, _, _, hax, hby⟩ := hacross
      exact .inr (.inr ⟨a, b, hab, hax, hby⟩)

/-- A character before the border that does not belong to the needle keeps the texts apart. -/
theorem apart_of_last (hc : c ∉ needle) (x y : List Char) : Apart needle (x ++ [c]) y := by
  intro a b hab ha _ hax
  have hlast : a.getLast ha = c := by
    obtain ⟨front, hfront⟩ := hax
    have hwhole := congrArg List.getLast? hfront
    rw [List.getLast?_append_of_ne_nil _ ha, List.getLast?_eq_some_getLast ha,
      List.getLast?_concat] at hwhole
    exact Option.some.inj hwhole
  have hin : c ∈ needle := by
    rw [hab, ← hlast]
    exact List.mem_append_left b (List.getLast_mem ha)
  exact absurd hin hc

/-- A character behind the border that can only begin the needle keeps the texts apart. -/
theorem apart_of_head (hc : c ∉ needle.tail) (x y : List Char) : Apart needle x (c :: y) := by
  intro a b hab ha hb _ hby
  obtain ⟨d, b, rfl⟩ := List.exists_cons_of_ne_nil hb
  obtain ⟨e, a, rfl⟩ := List.exists_cons_of_ne_nil ha
  obtain ⟨rfl, _⟩ := List.cons_prefix_cons.mp hby
  simp [hab] at hc

/-! ## the first occurrence -/

theorem eq_nil_of_needle_append {n z r₁ r₂ : List Char} (hc : c ∉ n) (hz : ¬ c :: n <:+: x ++ z)
    (h : c :: n ++ r₁ = z ++ (c :: n ++ r₂)) : z = [] := by
  by_contra hne
  have hpre : z <+: c :: n ++ r₁ := ⟨_, h.symm⟩
  rcases List.prefix_or_prefix_of_prefix (List.prefix_append (c :: n) r₁) hpre with hin | ⟨b, hb⟩
  · exact hz (hin.isInfix.trans (List.suffix_append x z).isInfix)
  · -- the needle would begin anew within itself
    obtain ⟨d, z, rfl⟩ := List.exists_cons_of_ne_nil hne
    rw [← hb, List.append_assoc, List.append_cancel_left_eq] at h
    cases b with
    | nil =>
        rw [List.append_nil] at hb
        exact hz (hb ▸ (List.suffix_append x _).isInfix)
    | cons e b =>
        injection h with he _
        injection hb with hd hn
        exact hc (by simp [← hn, he, hd])

/-- **The first needle** divides a text in one way only, if its first character does not come again
in it. -/
theorem append_needle_inj {n r₁ r₂ : List Char} (hc : c ∉ n) (hx : ¬ c :: n <:+: x)
    (hy : ¬ c :: n <:+: y) (h : x ++ (c :: n ++ r₁) = y ++ (c :: n ++ r₂)) :
    x = y ∧ r₁ = r₂ := by
  rcases List.append_eq_append_iff.mp h with ⟨z, rfl, hz⟩ | ⟨z, rfl, hz⟩
  · obtain rfl := eq_nil_of_needle_append hc hy hz
    simpa using hz
  · obtain rfl := eq_nil_of_needle_append hc hx hz
    simpa [eq_comm] using hz

/-- What is cut off before a needle does not hold it. -/
theorem not_isInfix_of_cut? {n s r : List Char} (h : cut? (c :: n) s = some (x, r)) :
    ¬ c :: n <:+: x := by
  induction s generalizing x with
  | nil => simp [cut?, after?] at h
  | cons d s ih =>
      rw [cut?] at h
      split at h
      · cases h
        simp
      · next hafter =>
          simp only [Option.map_eq_some_iff] at h
          obtain ⟨⟨front, r'⟩, hcut, heq⟩ := h
          cases heq
          rw [List.infix_cons_iff, not_or]
          refine ⟨fun hpre => after?_eq_none_iff.mp hafter (hpre.trans ?_), ih hcut⟩
          rw [List.prefix_cons_inj, eq_of_cut? hcut, List.append_assoc]
          exact List.prefix_append _ _

/-- **A cut at the first needle**, if its first character does not come again in it. -/
theorem cut?_eq_some_iff {n s r : List Char} (hc : c ∉ n) :
    cut? (c :: n) s = some (x, r) ↔ s = x ++ (c :: n ++ r) ∧ ¬ c :: n <:+: x := by
  constructor
  · intro h
    exact ⟨by rw [eq_of_cut? h, List.append_assoc], not_isInfix_of_cut? h⟩
  · rintro ⟨rfl, hx⟩
    cases hcut : cut? (c :: n) (x ++ (c :: n ++ r)) with
    | none =>
        rw [cut?_eq_none_iff] at hcut
        exact absurd ⟨x, r, by simp⟩ hcut
    | some parts =>
        obtain ⟨front, rest⟩ := parts
        have heq := eq_of_cut? hcut
        rw [List.append_assoc front] at heq
        obtain ⟨rfl, rfl⟩ := append_needle_inj hc hx (not_isInfix_of_cut? hcut) heq
        rfl

end

end InstallAssistant.Text
