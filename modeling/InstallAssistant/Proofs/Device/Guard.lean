import InstallAssistant.Device.Guard

/-!
# InstallAssistant.Proofs.Device.Guard

What the guard lets pass.  The known devices are those that the facts list
(`Known.contains_ofFacts_iff`); an action that is still a command behind the guard
is the one that was there before it, and names only devices that the machine has,
or that every machine has (`verify_command`); any other command is replaced with an
answer that lists its unknown paths (`verify_of_unknown`).
-/

namespace InstallAssistant.Device

/-! ## known devices -/

theorem Known.contains_ofFacts_iff {f : Facts} {path : String} :
    (Known.ofFacts f).contains path = true ↔ path ∈ f.devicePaths := by
  rw [Known.contains, List.contains_iff_mem, Known.ofFacts, Known.ofList, Text.Ordered.mem_ofList]

theorem Known.allows_iff {known : Known} {path : String} :
    known.allows path = true ↔ path ∈ pseudoDevices ∨ known.contains path = true := by
  rw [Known.allows, Bool.or_eq_true, List.contains_iff_mem]

theorem unknownPaths_eq_nil_iff {known : Known} {command : String} :
    unknownPaths known command = [] ↔ ∀ path ∈ paths command, known.allows path = true := by
  simp [unknownPaths, List.filter_eq_nil_iff]

/-! ## what passes -/

/-- **The guard lets an action pass or makes a text of it**; a command passes only if all its paths
are allowed. -/
theorem verify_command {known : Known} {a : Action}
    (h : (verify known a).action.kind = .command) :
    (verify known a).action = a ∧ ∀ path ∈ paths a.content, known.allows path = true := by
  unfold verify at h ⊢
  cases hk : a.kind with
  | text =>
      simp only [hk] at h
      contradiction
  | command =>
      simp only [hk] at h ⊢
      cases hunknown : unknownPaths known a.content with
      | nil => exact ⟨rfl, unknownPaths_eq_nil_iff.mp hunknown⟩
      | cons path rest =>
          simp only [hunknown] at h
          contradiction

/-! ## what is replaced -/

section

variable {known : Known} {command : String} {thinking : Option String}

theorem verify_eq_self_iff :
    verify known ⟨.command, command, thinking⟩ = ⟨⟨.command, command, thinking⟩, none⟩ ↔
      unknownPaths known command = [] := by
  cases h : unknownPaths known command with
  | nil => simp [verify, h]
  | cons path rest => simp [verify, h]

theorem verify_of_unknown (h : unknownPaths known command ≠ []) :
    verify known ⟨.command, command, thinking⟩ =
      ⟨⟨.text, Downgrade.answer ⟨unknownPaths known command⟩, thinking⟩,
        some ⟨unknownPaths known command⟩⟩ := by
  obtain ⟨path, rest, hcons⟩ := List.exists_cons_of_ne_nil h
  simp [verify, hcons]

/-- A command is replaced because of its unknown paths, and of nothing else. -/
theorem downgrade_verify :
    (verify known ⟨.command, command, thinking⟩).downgrade =
      if unknownPaths known command = [] then none else some ⟨unknownPaths known command⟩ := by
  by_cases h : unknownPaths known command = []
  · rw [if_pos h, verify_eq_self_iff.mpr h]
  · rw [if_neg h, verify_of_unknown h]

end

/-- **Only commands are replaced**, by texts, and every command that became a text was. -/
theorem isSome_downgrade_verify_iff {known : Known} {a : Action} :
    (verify known a).downgrade.isSome = true ↔
      a.kind = .command ∧ (verify known a).action.kind = .text := by
  obtain ⟨kind, content, thinking⟩ := a
  cases kind with
  | text => simp [verify]
  | command =>
      by_cases h : unknownPaths known content = []
      · simp [verify_eq_self_iff.mpr h]
      · simp [verify_of_unknown h]

end InstallAssistant.Device
