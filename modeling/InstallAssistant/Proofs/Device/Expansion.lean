import InstallAssistant.Proofs.Device.Guard
import InstallAssistant.Proofs.Device.Mention

/-!
# InstallAssistant.Proofs.Device.Expansion

Device words that a shell has still to expand.  Where quoting, an expansion, an
escape or a glob begins behind `/dev/` and a run of path characters, the guard takes
the word as it is written, with its separators collapsed
(`Expansion.mem_mentioned`).  No device that exists is called so, and the command is
replaced (`exists_verify_of_expansion`).
-/

namespace InstallAssistant.Device

/-! ## words that a shell expands -/

/-- The characters at which quoting, an expansion, an escape or a glob begins. -/
def expansions : List Char := ['\x22', '\x27', '$', '\x7b', '\\', '\x60', '*', '?', '[']

/-- The characters that end a word: white space and operators. -/
def wordEnds : List Char := [' ', '\t', '\n', '\x0c', '\r', ';', '|', '&', '<', '>', '(', ')']

/-- A place in a command where a device word is to be expanded: at the start of a word or behind
`=`, the directory of devices, a run of path characters, and the character at which the expansion
begins. -/
structure Expansion (command : String) where
  front : List Char
  run : List Char
  start : Char
  rest : List Char
  command_eq : command.toList = front ++ ("/dev/".toList ++ (run ++ start :: rest))
  front_end : ∀ c ∈ front.getLast?, c ∈ wordEnds ∨ c = '='
  run_chars : ∀ c ∈ run, c.isAlphanum = true ∨ c ∈ ['_', '+', '.', '/', ':', '-']
  start_mem : start ∈ expansions

namespace Expansion

variable {command : String} (x : Expansion command)

/-- The word as it is written, from the directory on. -/
def word : List Char :=
  ("/dev/".toList ++ (x.run ++ x.start :: x.rest)).takeWhile fun c => decide (c ∉ wordEnds)

theorem isPathChar_of_mem_run : ∀ c ∈ x.run, isPathChar c = true := by
  intro c hc
  have hrun := x.run_chars c hc
  simp only [List.mem_cons, List.not_mem_nil, or_false] at hrun
  simp only [isPathChar, Bool.or_eq_true, beq_iff_eq]
  tauto

theorem isExpansion_start : isExpansion x.start = true := isExpansion_iff.mpr x.start_mem

/-- What stands before the word is no part of it, and opens no pair of quotes. -/
theorem properties_of_front : ∀ c ∈ x.front.getLast?,
    isPathChar c = false ∧ isNameChar c = false ∧ isQuote c = false := by
  intro c hc
  have hall : ∀ d ∈ '=' :: wordEnds,
      isPathChar d = false ∧ isNameChar d = false ∧ isQuote d = false :=
    List.all_iff_forall_prop.mp (by decide)
  exact hall c (List.mem_cons.mpr (x.front_end c hc).symm)

/-- The run with its separators collapsed; they do not reach over the start of the expansion. -/
theorem collapse_append :
    collapse (root ++ (x.run ++ x.start :: x.rest)) =
      root ++ (collapseFrom true x.run ++ x.start :: collapse x.rest) := by
  have hplain := plain_of_isPathChar_eq_false (properties_of_isExpansion x.isExpansion_start).1
  have hopen : collapse (root ++ (x.run ++ x.start :: x.rest)) =
      root ++ collapseFrom true (x.run ++ x.start :: x.rest) := rfl
  rw [hopen, collapseFrom_append_cons hplain]

theorem isPathChar_of_mem_collapseFrom : ∀ c ∈ collapseFrom true x.run, isPathChar c = true :=
  fun c hc => x.isPathChar_of_mem_run c ((collapseFrom_sublist true x.run).subset hc)

theorem collapse_word :
    collapse x.word =
      (root ++ (collapseFrom true x.run ++ x.start :: collapse x.rest)).takeWhile
        fun c => !endsWord c := by
  have hends : (fun c => decide (c ∉ wordEnds)) = fun c => !endsWord c := by
    funext c
    rw [Bool.eq_iff_iff, decide_eq_true_iff, Bool.not_eq_true', ← Bool.not_eq_true, endsWord_iff]
    rfl
  rw [← x.collapse_append, word, hends, collapse, collapse, takeWhile_collapseFrom rfl rfl]
  rfl

/-- **The word is read as it is written**, with its separators collapsed. -/
theorem mem_mentioned : collapse x.word ∈ mentioned command.toList := by
  have hfront := x.properties_of_front
  have hquoted : (⟨x.front.getLast?, root ++ collapseFrom true x.run,
      x.start :: collapse x.rest⟩ : Mention).isQuoted = false := by
    cases hlast : x.front.getLast? with
    | none => rfl
    | some b =>
        by_cases hb : b = x.start
        · simp [Mention.isQuoted, ← hb, (hfront b hlast).2.2]
        · simp [Mention.isQuoted, hb]
  rw [x.command_eq]
  refine mem_mentioned_append (fun c hc => (hfront c hc).1) ?_
  rw [x.collapse_word]
  have hroot : "/dev/".toList = root := by decide
  rw [hroot, x.collapse_append]
  exact mem_filterMap_of_expansion x.isPathChar_of_mem_collapseFrom x.isExpansion_start
    (fun c hc => (hfront c hc).2.1) hquoted

/-- The start of the expansion is in the word. -/
theorem start_mem_collapse_word : x.start ∈ collapse x.word := by
  rw [x.collapse_word,
    takeWhile_root_append_run x.isPathChar_of_mem_collapseFrom x.isExpansion_start]
  simp

end Expansion

/-! ## the guard -/

/-- A path with an expansion in it is allowed only if it is known. -/
theorem Known.allows_eq_false_of_expansion {known : Known}
    (hknown : ∀ path, known.contains path = true → ∀ c ∈ path.toList, c ∉ expansions)
    {path : String} {c : Char} (hc : c ∈ path.toList) (hexpansion : c ∈ expansions) :
    known.allows path = false := by
  have hpseudo : ∀ path ∈ pseudoDevices, path.toList.all (fun c => decide (c ∉ expansions)) = true :=
    by decide
  by_contra h
  rw [Bool.not_eq_false, Known.allows_iff] at h
  cases h with
  | inl h => exact List.all_iff_forall_prop.mp (hpseudo path h) c hc hexpansion
  | inr h => exact hknown path h c hc hexpansion

/-- **A device word that a shell has still to expand is never run.**  Where no known device has a
character in its path at which an expansion begins, the guard makes a text of the command, whatever
stands before the word and behind it, and names the word among what it blocked. -/
theorem exists_verify_of_expansion {known : Known}
    (hknown : ∀ path, known.contains path = true → ∀ c ∈ path.toList, c ∉ expansions)
    {command : String} (x : Expansion command) (thinking : Option String) :
    ∃ d : Downgrade,
      verify known ⟨.command, command, thinking⟩ = ⟨⟨.text, d.answer, thinking⟩, some d⟩ ∧
        String.ofList (collapse x.word) ∈ d.blocked := by
  have hunknown : String.ofList (collapse x.word) ∈ unknownPaths known command := by
    have hmem : String.ofList (collapse x.word) ∈ paths command := by
      rw [paths_eq, List.mem_eraseDups]
      exact List.mem_map_of_mem x.mem_mentioned
    have hallows : known.allows (String.ofList (collapse x.word)) = false :=
      Known.allows_eq_false_of_expansion hknown (String.toList_ofList ▸ x.start_mem_collapse_word)
        x.start_mem
    simp [unknownPaths, hmem, hallows]
  exact ⟨⟨unknownPaths known command⟩, verify_of_unknown (List.ne_nil_of_mem hunknown), hunknown⟩

/-- A drive whose letter a shell puts in, behind a key and a redundant slash. -/
def Expansion.variableDrive : Expansion "dd if=/dev/zero of=/dev//sd$x bs=1M" where
  front := "dd if=/dev/zero of=".toList
  run := "/sd".toList
  start := '$'
  rest := "x bs=1M".toList
  command_eq := by decide
  front_end := by
    rintro _ ⟨⟩
    exact .inr rfl
  run_chars := List.all_iff_forall_prop.mp (by decide)
  start_mem := by decide

/-- The drive is blocked; what the command reads from, before it, would be allowed. -/
theorem exists_verify_of_variableDrive :
    (∀ path, Known.contains ⟨["/dev/sda"]⟩ path = true → ∀ c ∈ path.toList, c ∉ expansions) ∧
      ∃ d : Downgrade,
        verify ⟨["/dev/sda"]⟩ ⟨.command, "dd if=/dev/zero of=/dev//sd$x bs=1M", none⟩ =
            ⟨⟨.text, d.answer, none⟩, some d⟩ ∧
          "/dev/sd$x" ∈ d.blocked := by
  have hknown : ∀ path, Known.contains ⟨["/dev/sda"]⟩ path = true →
      ∀ c ∈ path.toList, c ∉ expansions := by
    intro path hpath
    rw [Known.contains, List.contains_iff_mem, List.mem_singleton] at hpath
    rw [hpath]
    exact List.all_iff_forall_prop.mp (by decide)
  obtain ⟨d, hverify, hmem⟩ := exists_verify_of_expansion hknown Expansion.variableDrive none
  have hword : String.ofList (collapse Expansion.variableDrive.word) = "/dev/sd$x" := by decide
  rw [hword] at hmem
  exact ⟨hknown, d, hverify, hmem⟩

end InstallAssistant.Device
