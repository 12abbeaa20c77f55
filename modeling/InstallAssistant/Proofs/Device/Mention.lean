import InstallAssistant.Device.Mention
import Mathlib.Data.Bool.AllAny
import Mathlib.Data.List.DropRight
import Mathlib.Data.List.Infix

/-!
# InstallAssistant.Proofs.Device.Mention

Where device paths are found in a text:

* collapsing acts between slashes only: it stops at any other character
  (`collapseFrom_append_cons`) and puts no new run of them together
  (`isInfix_of_collapseFrom`);
* no mention reaches across a character that paths cannot hold
  (`mentionsFrom_append_cons`);
* so the words of a command are read one by one, and the command mentions what its
  words mention (`mentioned_eq_flatMap_words`).
-/

namespace InstallAssistant.Device

/-! ## separators -/

/-- A character that no separator is made of. -/
def Plain (c : Char) : Prop := c ≠ '/' ∧ c ≠ '.'

instance : DecidablePred Plain := fun _ => inferInstanceAs (Decidable (_ ∧ _))

/-- A character that neither is a slash nor begins `./` is kept. -/
theorem collapseFrom_cons_of_ne {c : Char} {s : List Char} (hslash : c ≠ '/')
    (hdot : c = '.' → s.head? ≠ some '/') (afterSlash : Bool) :
    collapseFrom afterSlash (c :: s) = c :: collapse s := by
  rw [collapseFrom]
  · rfl
  · exact hslash
  · intro rest hc hs
    exact hdot hc (by rw [hs, List.head?_cons])

theorem collapseFrom_cons {c : Char} (hc : Plain c) (afterSlash : Bool) (s : List Char) :
    collapseFrom afterSlash (c :: s) = c :: collapse s :=
  collapseFrom_cons_of_ne hc.1 (fun hdot => absurd hdot hc.2) afterSlash

theorem collapse_plain_append {x : List Char} (hx : ∀ c ∈ x, Plain c) (s : List Char) :
    collapse (x ++ s) = x ++ collapse s := by
  induction x with
  | nil => rfl
  | cons c x ih =>
      rw [List.cons_append, collapse, collapseFrom_cons (hx c List.mem_cons_self),
        ih fun d hd => hx d (List.mem_cons_of_mem c hd), List.cons_append]

theorem collapse_of_plain {x : List Char} (hx : ∀ c ∈ x, Plain c) : collapse x = x := by
  have h := collapse_plain_append hx []
  rwa [List.append_nil, show collapse [] = [] from rfl, List.append_nil] at h

/-- The slashes of a device path are single ones. -/
theorem collapse_root_append {x : List Char} (hx : ∀ c ∈ x, Plain c) :
    collapse (root ++ x) = root ++ x := by
  cases x with
  | nil => rfl
  | cons c x =>
      have hopen : collapse (root ++ c :: x) = root ++ collapseFrom true (c :: x) := rfl
      rw [hopen, collapseFrom_cons (hx c List.mem_cons_self),
        collapse_of_plain fun d hd => hx d (List.mem_cons_of_mem c hd)]

/-- Separators do not reach across a plain character. -/
theorem collapseFrom_append_cons {c : Char} (hc : Plain c) (afterSlash : Bool)
    (x s : List Char) :
    collapseFrom afterSlash (x ++ c :: s) = collapseFrom afterSlash x ++ c :: collapse s := by
  fun_induction collapseFrom afterSlash x with
  | case1 afterSlash => rw [List.nil_append, collapseFrom_cons hc, List.nil_append]
  | case2 rest ih => simpa [collapseFrom] using ih
  | case3 afterSlash rest h ih => simpa [collapseFrom, h] using ih
  | case4 rest ih => simpa [collapseFrom] using ih
  | case5 afterSlash rest h ih => simpa [collapseFrom, h] using ih
  | case6 afterSlash d rest hslash hdot ih =>
      have hhead : d = '.' → (rest ++ c :: s).head? ≠ some '/' := by
        intro hd hnext
        cases rest with
        | nil => exact hc.1 (Option.some.inj hnext)
        | cons e rest => exact hdot rest hd (by rw [Option.some.inj hnext])
      rw [List.cons_append, collapseFrom_cons_of_ne hslash hhead, collapse, ih, List.cons_append]

/-- Collapsing only takes characters out. -/
theorem collapseFrom_sublist (afterSlash : Bool) (s : List Char) :
    (collapseFrom afterSlash s).Sublist s := by
  fun_induction collapseFrom afterSlash s with
  | case1 afterSlash => exact .slnil
  | case2 rest ih => exact ih.cons _
  | case3 afterSlash rest h ih => exact ih.cons_cons _
  | case4 rest ih => exact (ih.cons _).cons _
  | case5 afterSlash rest h ih => exact (ih.cons_cons _).cons_cons _
  | case6 afterSlash c rest hslash hdot ih => exact ih.cons_cons _

/-- A part that may hold separators is collapsed where it stands. -/
theorem takeWhile_collapseFrom {f : Char → Bool} (hslash : f '/' = true) (hpoint : f '.' = true)
    (afterSlash : Bool) (s : List Char) :
    (collapseFrom afterSlash s).takeWhile f = collapseFrom afterSlash (s.takeWhile f) := by
  fun_induction collapseFrom afterSlash s with
  | case1 afterSlash => simp [collapseFrom]
  | case2 rest ih => simpa [hslash, collapseFrom] using ih
  | case3 afterSlash rest h ih => simpa [hslash, collapseFrom, h] using ih
  | case4 rest ih => simpa [hslash, hpoint, collapseFrom] using ih
  | case5 afterSlash rest h ih => simpa [hslash, hpoint, collapseFrom, h] using ih
  | case6 afterSlash c rest hne hdot ih =>
      by_cases hc : f c = true
      · have hhead : c = '.' → (rest.takeWhile f).head? ≠ some '/' := by
          intro hc hnext
          cases rest with
          | nil => contradiction
          | cons d rest =>
              by_cases hd : f d = true
              · rw [List.takeWhile_cons_of_pos hd, List.head?_cons] at hnext
                exact hdot rest hc (by rw [Option.some.inj hnext])
              · simp [hd] at hnext
        rw [List.takeWhile_cons_of_pos hc, List.takeWhile_cons_of_pos hc, ih,
          collapseFrom_cons_of_ne hne hhead, collapse]
      · simp [hc, collapseFrom]

theorem eq_nil_of_isPrefix_cons {c : Char} (hc : ¬ Plain c) {t s : List Char}
    (ht : ∀ d ∈ t, Plain d) (h : t <+: c :: s) : t = [] := by
  cases t with
  | nil => rfl
  | cons d t =>
      obtain ⟨rfl, _⟩ := List.cons_prefix_cons.mp h
      exact absurd (ht d List.mem_cons_self) hc

theorem isPrefix_of_collapseFrom {t s : List Char} {afterSlash : Bool}
    (ht : ∀ c ∈ t, Plain c) (hfirst : afterSlash = false) (h : t <+: collapseFrom afterSlash s) :
    t <+: s := by
  fun_induction collapseFrom afterSlash s generalizing t with
  | case1 afterSlash => exact h
  | case2 rest ih => contradiction
  | case3 afterSlash rest hafter ih =>
      rw [eq_nil_of_isPrefix_cons (fun hc => hc.1 rfl) ht h]
      exact List.nil_prefix
  | case4 rest ih => contradiction
  | case5 afterSlash rest hafter ih =>
      rw [eq_nil_of_isPrefix_cons (fun hc => hc.2 rfl) ht h]
      exact List.nil_prefix
  | case6 afterSlash c rest hslash hdot ih =>
      cases t with
      | nil => exact List.nil_prefix
      | cons d t =>
          obtain ⟨rfl, hpre⟩ := List.cons_prefix_cons.mp h
          have hrest := ih (fun e he => ht e (List.mem_cons_of_mem d he)) rfl hpre
          exact List.cons_prefix_cons.mpr ⟨rfl, hrest⟩

/-- Collapsing brings no plain characters together that were apart. -/
theorem isInfix_of_collapseFrom {t s : List Char} {afterSlash : Bool} (ht : ∀ c ∈ t, Plain c)
    (h : t <:+: collapseFrom afterSlash s) : t <:+: s := by
  fun_induction collapseFrom afterSlash s with
  | case1 afterSlash => exact h
  | case2 rest ih => exact List.infix_cons (ih h)
  | case3 afterSlash rest hafter ih =>
      rcases List.infix_cons_iff.mp h with hpre | hin
      · rw [eq_nil_of_isPrefix_cons (fun hc => hc.1 rfl) ht hpre]
        exact List.nil_infix
      · exact List.infix_cons (ih hin)
  | case4 rest ih => exact List.infix_cons (List.infix_cons (ih h))
  | case5 afterSlash rest hafter ih =>
      rcases List.infix_cons_iff.mp h with hpre | hin
      · rw [eq_nil_of_isPrefix_cons (fun hc => hc.2 rfl) ht hpre]
        exact List.nil_infix
      · rcases List.infix_cons_iff.mp hin with hpre | hin
        · rw [eq_nil_of_isPrefix_cons (fun hc => hc.1 rfl) ht hpre]
          exact List.nil_infix
        · exact List.infix_cons (List.infix_cons (ih hin))
  | case6 afterSlash c rest hslash hdot ih =>
      rcases List.infix_cons_iff.mp h with hpre | hin
      · have hkept : collapseFrom false (c :: rest) = c :: collapseFrom false rest := by
          rw [collapseFrom]
          · exact hslash
          · exact hdot
        rw [← hkept] at hpre
        exact (isPrefix_of_collapseFrom ht rfl hpre).isInfix
      · exact List.infix_cons (ih hin)

/-! ## single steps of the search -/

@[simp] theorem mentionsFrom_nil (before : Option Char) : mentionsFrom before [] = [] := by
  rw [mentionsFrom]

theorem mentionsFrom_root_append (before : Option Char) (s : List Char) :
    mentionsFrom before (root ++ s) =
      ⟨before, root ++ s.takeWhile isPathChar, s.dropWhile isPathChar⟩ ::
        mentionsFrom (root ++ s.takeWhile isPathChar).getLast? (s.dropWhile isPathChar) := by
  have hroot : root ++ s = '/' :: ('d' :: 'e' :: 'v' :: '/' :: s) := rfl
  have hafter : Text.after? root ('/' :: ('d' :: 'e' :: 'v' :: '/' :: s)) = some s :=
    Text.after?_eq_some_iff.mpr rfl
  rw [hroot, mentionsFrom]
  split
  · next rest hrest =>
      rw [hafter] at hrest
      obtain rfl := Option.some.inj hrest
      rfl
  · next hnone =>
      rw [hafter] at hnone
      contradiction

theorem mentionsFrom_cons {c : Char} {s : List Char} (h : ¬ root <+: c :: s)
    (before : Option Char) : mentionsFrom before (c :: s) = mentionsFrom (some c) s := by
  rw [mentionsFrom]
  split
  · next rest hrest => exact absurd ⟨rest, (Text.after?_eq_some_iff.mp hrest).symm⟩ h
  · rfl

theorem not_root_isPrefix_cons {c : Char} (hc : c ≠ '/') (s : List Char) : ¬ root <+: c :: s :=
  fun h => hc (List.cons_prefix_cons.mp h).1.symm

/-- Where the directory of device nodes does not occur, nothing is mentioned. -/
theorem mentionsFrom_eq_nil {s : List Char} (h : ¬ root <:+: s) (before : Option Char) :
    mentionsFrom before s = [] := by
  induction s generalizing before with
  | nil => exact mentionsFrom_nil before
  | cons c s ih =>
      rw [List.infix_cons_iff, not_or] at h
      rw [mentionsFrom_cons h.1, ih h.2]

/-! ## mentions in texts side by side -/

/-- A mention with more text behind it. -/
def Mention.extend (m : Mention) (s : List Char) : Mention := { m with after := m.after ++ s }

section

variable {f : Char → Bool} {c : Char}

theorem takeWhile_append_cons (hc : f c = false) (x s : List Char) :
    (x ++ c :: s).takeWhile f = x.takeWhile f := by
  induction x with
  | nil => simp [hc]
  | cons d x ih => simp [List.takeWhile_cons, ih]

theorem dropWhile_append_cons (hc : f c = false) (x s : List Char) :
    (x ++ c :: s).dropWhile f = x.dropWhile f ++ c :: s := by
  induction x with
  | nil => simp [hc]
  | cons d x ih =>
      by_cases hd : f d = true
      · simp [hd, ih]
      · simp [hd]

end

/-- A beginning of a text that lacks the character `c` does not reach up to it. -/
theorem isPrefix_of_isPrefix_append_cons {t x s : List Char} {c : Char} (hc : c ∉ t)
    (h : t <+: x ++ c :: s) : t <+: x := by
  rcases List.prefix_or_prefix_of_prefix h (List.prefix_append x _) with hpre | ⟨y, rfl⟩
  · exact hpre
  · cases y with
    | nil => exact (List.append_nil x).symm ▸ List.prefix_rfl
    | cons d y =>
        obtain ⟨rfl, _⟩ := List.cons_prefix_cons.mp ((List.prefix_append_right_inj x).mp h)
        simp at hc

/-- **No mention reaches across** a character that a path cannot hold. -/
theorem mentionsFrom_append_cons {c : Char} (hc : isPathChar c = false) (before : Option Char)
    (x s : List Char) :
    mentionsFrom before (x ++ c :: s) =
      (mentionsFrom before x).map (·.extend (c :: s)) ++ mentionsFrom (some c) s := by
  have hroot : c ∉ root := by
    intro hmem
    have hall : ∀ d ∈ root, isPathChar d = true := List.all_eq_true.mp (by decide)
    rw [hall c hmem] at hc
    contradiction
  fun_induction mentionsFrom before x with
  | case1 before =>
      have hslash : c ≠ '/' := fun h => hroot (h ▸ List.mem_cons_self)
      exact mentionsFrom_cons (not_root_isPrefix_cons hslash s) before
  | case2 before d cs rest hrest path ih =>
      have hcs : d :: cs = root ++ rest := Text.after?_eq_some_iff.mp hrest
      rw [hcs, List.append_assoc, mentionsFrom_root_append, takeWhile_append_cons hc,
        dropWhile_append_cons hc, ih]
      rfl
  | case3 before d cs hnone ih =>
      have hno : ¬ root <+: d :: (cs ++ c :: s) := fun h =>
        Text.after?_eq_none_iff.mp hnone (isPrefix_of_isPrefix_append_cons (x := d :: cs) hroot h)
      rw [List.cons_append, mentionsFrom_cons hno, ih]

/-! ## what a mention names -/

theorem endsWord_iff {c : Char} : endsWord c = true ↔
    c ∈ [' ', '\t', '\n', '\x0c', '\r', ';', '|', '&', '<', '>', '(', ')'] := by
  simp [endsWord, Text.isAsciiSpace, or_assoc]

/-- What ends a word is no part of a path, of a name or of an expansion. -/
theorem properties_of_endsWord {c : Char} (hc : endsWord c = true) :
    isPathChar c = false ∧ isNameChar c = false ∧ isExpansion c = false ∧ c ≠ '/' ∧ c ≠ '.' := by
  have hall : ∀ d ∈ [' ', '\t', '\n', '\x0c', '\r', ';', '|', '&', '<', '>', '(', ')'],
      isPathChar d = false ∧ isNameChar d = false ∧ isExpansion d = false ∧ d ≠ '/' ∧
        d ≠ '.' := List.all_iff_forall_prop.mp (by decide)
  exact hall c (endsWord_iff.mp hc)

theorem endsWord_of_isPathChar {c : Char} (hc : isPathChar c = true) : endsWord c = false := by
  by_contra h
  rw [(properties_of_endsWord (by simpa using h)).1] at hc
  contradiction

/-- Separators are a part of paths. -/
theorem plain_of_isPathChar_eq_false {c : Char} (hc : isPathChar c = false) : Plain c := by
  simp only [isPathChar, Bool.or_eq_false_iff, beq_eq_false_iff_ne] at hc
  exact ⟨hc.1.2, hc.1.1.2⟩

theorem isExpansion_iff {c : Char} : isExpansion c = true ↔
    c ∈ ['\x22', '\x27', '$', '\x7b', '\\', '\x60', '*', '?', '['] := by
  simp [isExpansion, isQuote, or_assoc]

/-- Where an expansion begins, the path of a mention is over and its word is not. -/
theorem properties_of_isExpansion {c : Char} (hc : isExpansion c = true) :
    isPathChar c = false ∧ endsWord c = false := by
  have hall : ∀ d ∈ ['\x22', '\x27', '$', '\x7b', '\\', '\x60', '*', '?', '['],
      isPathChar d = false ∧ endsWord d = false := List.all_iff_forall_prop.mp (by decide)
  exact hall c (isExpansion_iff.mp hc)

/-- An expansion does not end the word that it begins in. -/
theorem takeWhile_cons_of_isExpansion {e : Char} (he : isExpansion e = true) (s : List Char) :
    (e :: s).takeWhile (fun c => !endsWord c) = e :: s.takeWhile fun c => !endsWord c := by
  rw [List.takeWhile_cons, (properties_of_isExpansion he).2]
  rfl

namespace Mention

/-- What is read of a mention with something behind it. -/
theorem reading_cons (before : Option Char) (path : List Char) (q : Char) (t : List Char) :
    (⟨before, path, q :: t⟩ : Mention).reading =
      if isExpansion q && !(⟨before, path, q :: t⟩ : Mention).isQuoted then
        path ++ (q :: t).takeWhile fun c => !endsWord c
      else (⟨before, path, q :: t⟩ : Mention).trimmed := rfl

/-- What is read is the run without the punctuation at its end, or more than the run. -/
theorem reading_cases (m : Mention) :
    m.reading = m.trimmed ∨ ∃ c w, m.reading = m.path ++ c :: w := by
  obtain ⟨before, path, after⟩ := m
  cases after with
  | nil => exact .inl rfl
  | cons q t =>
      rw [reading_cons]
      by_cases hq : (isExpansion q && !(⟨before, path, q :: t⟩ : Mention).isQuoted) = true
      · rw [if_pos hq, takeWhile_cons_of_isExpansion (Bool.and_eq_true_iff.mp hq).1]
        exact .inr ⟨q, _, rfl⟩
      · rw [if_neg hq]
        exact .inl rfl

/-- A mention reaches no further than its word. -/
theorem path?_extend {c : Char} (hc : endsWord c = true) (m : Mention) (s : List Char) :
    (m.extend (c :: s)).path? = m.path? := by
  obtain ⟨before, path, after⟩ := m
  have hreading : ((⟨before, path, after⟩ : Mention).extend (c :: s)).reading =
      (⟨before, path, after⟩ : Mention).reading := by
    cases after with
    | nil =>
        have hexpansion := (properties_of_endsWord hc).2.2.1
        rw [extend, List.nil_append, reading_cons, hexpansion]
        rfl
    | cons q t =>
        have hquoted : (⟨before, path, q :: (t ++ c :: s)⟩ : Mention).isQuoted =
            (⟨before, path, q :: t⟩ : Mention).isQuoted := by
          cases before <;> rfl
        have hreach : (q :: t ++ c :: s).takeWhile (fun d => !endsWord d) =
            (q :: t).takeWhile fun d => !endsWord d :=
          takeWhile_append_cons (by simp [hc]) (q :: t) s
        rw [extend, List.cons_append, reading_cons, reading_cons, hquoted, ← List.cons_append,
          hreach]
        rfl
  rw [path?, path?, hreading]
  rfl

/-- The character before a path matters only if it ends a name or is a quote. -/
theorem path?_of_before {before : Option Char}
    (hbefore : ∀ c ∈ before, isNameChar c = false ∧ isQuote c = false)
    (path after : List Char) :
    (⟨before, path, after⟩ : Mention).path? = (⟨none, path, after⟩ : Mention).path? := by
  cases before with
  | none => rfl
  | some b =>
      obtain ⟨hname, hquote⟩ := hbefore b rfl
      have hreading : (⟨some b, path, after⟩ : Mention).reading =
          (⟨none, path, after⟩ : Mention).reading := by
        cases after with
        | nil => rfl
        | cons q t =>
            have hquoted : (⟨some b, path, q :: t⟩ : Mention).isQuoted = false := by
              by_cases hq : b = q
              · simp [isQuoted, ← hq, hquote]
              · simp [isQuoted, hq]
            rw [reading_cons, reading_cons, hquoted]
            rfl
      rw [path?, path?, hreading]
      simp [hname]

theorem any_isNameChar_eq_false {before : Option Char}
    (hbefore : ∀ c ∈ before, isNameChar c = false) : before.any isNameChar = false := by
  cases before with
  | none => rfl
  | some b => exact hbefore b rfl

/-- A path that is all there is of its word is named as it is written. -/
theorem path?_of_last {before : Option Char} (hbefore : ∀ c ∈ before, isNameChar c = false)
    {path after : List Char} (hlength : root.length < path.length)
    (hlast : ∀ c ∈ path.getLast?, isTrailing c = false)
    (hafter : after = [] ∨ (⟨before, path, after⟩ : Mention).isQuoted = true) :
    (⟨before, path, after⟩ : Mention).path? = some path := by
  have htrimmed : (⟨before, path, after⟩ : Mention).trimmed = path := by
    refine List.rdropWhile_eq_self_iff.mpr fun hne => ?_
    rw [hlast _ (List.getLast_mem_getLast? hne)]
    decide
  have hreading : (⟨before, path, after⟩ : Mention).reading = path := by
    cases after with
    | nil => exact htrimmed
    | cons q t =>
        have hquoted := hafter.resolve_left (List.cons_ne_nil q t)
        rw [reading_cons, hquoted, Bool.not_true, Bool.and_false, if_neg Bool.false_ne_true,
          htrimmed]
  rw [path?, hreading, any_isNameChar_eq_false hbefore, decide_eq_false (Nat.not_le.mpr hlength)]
  rfl

/-- A path that goes on with an expansion is named as far as its word goes. -/
theorem path?_of_expansion {before : Option Char} (hbefore : ∀ c ∈ before, isNameChar c = false)
    {path t : List Char} {q : Char} (hpath : root.length ≤ path.length)
    (hq : isExpansion q = true)
    (hquoted : (⟨before, path, q :: t⟩ : Mention).isQuoted = false) :
    (⟨before, path, q :: t⟩ : Mention).path? =
      some (path ++ (q :: t).takeWhile fun c => !endsWord c) := by
  have hlength : ¬ (path ++ (q :: t).takeWhile fun c => !endsWord c).length ≤ root.length := by
    rw [takeWhile_cons_of_isExpansion hq, List.length_append, List.length_cons]
    omega
  rw [path?, reading_cons, hq, hquoted, any_isNameChar_eq_false hbefore]
  simp only [Bool.not_false, Bool.and_true, if_true, Bool.false_or, decide_eq_true_eq, hlength,
    if_false]

end Mention

/-- A run of path characters is one mention, up to where it stops. -/
theorem mentionsFrom_root_append_run {run : List Char} (hrun : ∀ c ∈ run, isPathChar c = true)
    {c : Char} (hc : isPathChar c = false) (before : Option Char) (s : List Char) :
    mentionsFrom before (root ++ (run ++ c :: s)) =
      ⟨before, root ++ run, c :: s⟩ :: mentionsFrom (root ++ run).getLast? (c :: s) := by
  rw [mentionsFrom_root_append, takeWhile_append_cons hc, dropWhile_append_cons hc,
    List.takeWhile_eq_self_iff.mpr hrun, List.dropWhile_eq_nil_iff.mpr hrun, List.nil_append]

/-- A word with an expansion in it goes on behind the beginning of the expansion. -/
theorem takeWhile_root_append_run {run : List Char} (hrun : ∀ c ∈ run, isPathChar c = true)
    {e : Char} (he : isExpansion e = true) (s : List Char) :
    (root ++ (run ++ e :: s)).takeWhile (fun c => !endsWord c) =
      root ++ run ++ e :: s.takeWhile (fun c => !endsWord c) := by
  have hroot : ∀ c ∈ root, isPathChar c = true := List.all_eq_true.mp (by decide)
  have hends : ∀ c ∈ root ++ run, (!endsWord c) = true := by
    intro c hc
    rw [endsWord_of_isPathChar (List.forall_mem_append.mpr ⟨hroot, hrun⟩ c hc), Bool.not_false]
  rw [← List.append_assoc, List.takeWhile_append_of_pos hends, takeWhile_cons_of_isExpansion he]

/-- A path that goes on with an expansion, and does not stand in a pair of quotes, is read as far as
its word goes. -/
theorem mem_filterMap_of_expansion {run s : List Char} (hrun : ∀ c ∈ run, isPathChar c = true)
    {e : Char} (he : isExpansion e = true) {before : Option Char}
    (hbefore : ∀ c ∈ before, isNameChar c = false)
    (hquoted : (⟨before, root ++ run, e :: s⟩ : Mention).isQuoted = false) :
    (root ++ (run ++ e :: s)).takeWhile (fun c => !endsWord c) ∈
      (mentionsFrom before (root ++ (run ++ e :: s))).filterMap Mention.path? := by
  have hlength : root.length ≤ (root ++ run).length := by
    rw [List.length_append]
    exact Nat.le_add_right _ _
  rw [mentionsFrom_root_append_run hrun (properties_of_isExpansion he).1, List.filterMap_cons,
    Mention.path?_of_expansion hbefore hlength he hquoted, takeWhile_root_append_run hrun he,
    takeWhile_cons_of_isExpansion he]
  exact List.mem_cons_self

/-! ## the words of a command -/

/-- The device paths that a text mentions, as often as it mentions them. -/
def mentioned (s : List Char) : List (List Char) :=
  (mentionsFrom none (collapse s)).filterMap Mention.path?

theorem paths_eq (command : String) :
    paths command = ((mentioned command.toList).map String.ofList).eraseDups := rfl

/-- Behind a character that a path cannot hold, the search starts anew. -/
theorem mem_mentioned_append {front s path : List Char}
    (hfront : ∀ c ∈ front.getLast?, isPathChar c = false)
    (h : path ∈ (mentionsFrom front.getLast? (collapse s)).filterMap Mention.path?) :
    path ∈ mentioned (front ++ s) := by
  rcases List.eq_nil_or_concat front with rfl | ⟨front, c, rfl⟩
  · exact h
  · rw [List.concat_eq_append, List.getLast?_concat] at hfront h
    have hc := hfront c rfl
    rw [List.concat_eq_append, List.append_assoc, List.singleton_append, mentioned, collapse,
      collapseFrom_append_cons (plain_of_isPathChar_eq_false hc), mentionsFrom_append_cons hc,
      List.filterMap_append]
    exact List.mem_append_right _ h

theorem filterMap_path?_mentionsFrom {before : Option Char}
    (hbefore : ∀ c ∈ before, isNameChar c = false ∧ isQuote c = false) (s : List Char) :
    (mentionsFrom before s).filterMap Mention.path? =
      (mentionsFrom none s).filterMap Mention.path? := by
  by_cases hroot : root <+: s
  · obtain ⟨rest, rfl⟩ := hroot
    rw [mentionsFrom_root_append, mentionsFrom_root_append, List.filterMap_cons,
      List.filterMap_cons, Mention.path?_of_before hbefore]
  · cases s with
    | nil => rw [mentionsFrom_nil, mentionsFrom_nil]
    | cons c s => rw [mentionsFrom_cons hroot, mentionsFrom_cons hroot]

/-- **Word by word**: what ends a word separates the mentions on both of its sides. -/
theorem mentioned_append_cons {c : Char} (hc : endsWord c = true) (x s : List Char) :
    mentioned (x ++ c :: s) = mentioned x ++ mentioned s := by
  obtain ⟨hpath, hname, hexpansion, hslash, hpoint⟩ := properties_of_endsWord hc
  have hbefore : ∀ d ∈ some c, isNameChar d = false ∧ isQuote d = false := by
    rintro d ⟨⟩
    simp only [isExpansion, Bool.or_eq_false_iff] at hexpansion
    exact ⟨hname, by tauto⟩
  have hextend : (Mention.path? ∘ fun m => m.extend (c :: collapse s)) = Mention.path? := by
    funext m
    exact Mention.path?_extend hc m (collapse s)
  rw [mentioned, collapse, collapseFrom_append_cons ⟨hslash, hpoint⟩,
    mentionsFrom_append_cons hpath, List.filterMap_append, List.filterMap_map, hextend,
    filterMap_path?_mentionsFrom hbefore]
  rfl

/-- The words of a text, empty where two characters that end words meet. -/
def words (s : List Char) : List (List Char) := s.splitOnP endsWord

/-- **A command mentions what its words mention.** -/
theorem mentioned_eq_flatMap_words (s : List Char) : mentioned s = (words s).flatMap mentioned := by
  cases hfind : s.find? endsWord with
  | none =>
      have hno : ∀ c ∈ s, endsWord c = false := by simpa using hfind
      rw [words, List.splitOnP_eq_singleton hno, List.flatMap_singleton]
  | some c =>
      obtain ⟨hc, word, rest, rfl, hword⟩ := List.find?_eq_some_iff_append.mp hfind
      have hno : ∀ d ∈ word, endsWord d = false := by simpa using hword
      rw [words, List.splitOnP_append_cons_of_forall_mem hno c hc, List.flatMap_cons,
        mentioned_append_cons hc, mentioned_eq_flatMap_words rest]
      rfl
termination_by s.length

/-- A part of a text that begins and ends with words is mentioned in the text. -/
theorem mem_mentioned_of_border {front word rest path : List Char}
    (hfront : ∀ c ∈ front.getLast?, endsWord c = true)
    (hrest : ∀ c ∈ rest.head?, endsWord c = true) (h : path ∈ mentioned word) :
    path ∈ mentioned (front ++ word ++ rest) := by
  have hbehind : path ∈ mentioned (word ++ rest) := by
    cases rest with
    | nil => rwa [List.append_nil]
    | cons c rest =>
        rw [mentioned_append_cons (hrest c rfl)]
        exact List.mem_append_left _ h
  rw [List.append_assoc]
  rcases List.eq_nil_or_concat front with rfl | ⟨front, c, rfl⟩
  · exact hbehind
  · rw [List.concat_eq_append, List.append_assoc, List.singleton_append,
      mentioned_append_cons (hfront c (by simp))]
    exact List.mem_append_right _ hbehind

end InstallAssistant.Device
