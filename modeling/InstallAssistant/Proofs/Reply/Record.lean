import InstallAssistant.Proofs.Action
import InstallAssistant.Proofs.Device.Guard
import InstallAssistant.Proofs.Reply.Target

/-!
# InstallAssistant.Proofs.Reply.Record

Every action that goes out can be recorded.  A decoded action is trimmed
(`trimmed_of_decode`), the guard keeps it so (`trimmed_verify`), and a trimmed
action comes back from the record that expects it (`recordable_of_decode`).
-/

namespace InstallAssistant

open Markup

/-! ## decoded actions -/

namespace Reply

/-- A command is what is kept of some text. -/
theorem exists_nonBlank?_of_command? {payload command : String}
    (h : command? payload = .ok command) : ∃ s, Text.nonBlank? s = some command := by
  unfold command? at h
  split at h
  · contradiction
  · split at h
    · contradiction
    · split at h
      · contradiction
      · split at h
        · contradiction
        · split at h
          · next hkept =>
              obtain ⟨s, _, hs⟩ := Option.bind_eq_some_iff.mp hkept
              obtain rfl := Except.ok.inj h
              exact ⟨s, hs⟩
          · contradiction

/-- What a body says is trimmed. -/
theorem Says.nonBlank? {body : List Char} {kind : Action.Kind} {content : String}
    (h : Says body kind content) : Text.nonBlank? content = some content := by
  cases kind with
  | command =>
      obtain ⟨payload, _, hcommand⟩ := h
      obtain ⟨s, hs⟩ := exists_nonBlank?_of_command? hcommand
      exact Text.nonBlank?_of_eq_some hs
  | text => exact Text.nonBlank?_of_eq_some h.2

/-- **Decoded actions are trimmed.** -/
theorem trimmed_of_decode {raw : String} {a : Action} (h : decode raw = .ok a) : a.Trimmed := by
  obtain ⟨hthinking, hsaid⟩ := decode_eq_ok_iff.mp h
  refine ⟨hsaid.nonBlank?, fun t ht => ?_⟩
  obtain ⟨x, hx⟩ := exists_splitReasoning_fst (Text.unifyBreaks raw.toList)
  rw [← hthinking, hx] at ht
  exact Text.nonBlank?_of_eq_some ht

end Reply

/-! ## verified actions -/

namespace Device

/-- The answer to a command that was replaced begins and ends with plain characters. -/
theorem nonBlank?_answer (d : Downgrade) : Text.nonBlank? d.answer = some d.answer := by
  have hanswer : d.answer.toList = "I couldn't find ".toList ++ (d.listed.toList ++
      " on this system. Let me check what disks are available.".toList) := by
    rw [← String.toList_append, ← String.toList_append, ← String.append_assoc]
    rfl
  have htrimmed : Text.IsTrimmed d.answer.toList := by
    rw [hanswer]
    constructor
    · intro c hc
      have hfirst : some 'I' = some c := hc
      cases hfirst
      rfl
    · intro c hc
      rw [← List.append_assoc, List.getLast?_append_of_ne_nil _ (by simp)] at hc
      have hlast : some '.' = some c := hc
      cases hlast
      rfl
  exact Text.nonBlank?_of_isTrimmed htrimmed (by simp [hanswer])

/-- **The guard keeps actions trimmed.** -/
theorem trimmed_verify {a : Action} (h : a.Trimmed) (known : Known) :
    (verify known a).action.Trimmed := by
  obtain ⟨kind, content, thinking⟩ := a
  cases kind with
  | text => exact h
  | command =>
      by_cases hunknown : unknownPaths known content = []
      · rw [verify_eq_self_iff.mpr hunknown]
        exact h
      · rw [verify_of_unknown hunknown]
        exact ⟨nonBlank?_answer _, h.thinking⟩

end Device

/-! ## records of actions -/

/-- **Every action that goes out can be recorded**: both a decoded action and what the guard makes of
it. -/
theorem Reply.recordable_of_decode {raw : String} {a : Action} (h : decode raw = .ok a)
    (known : Device.Known) :
    a.Recordable ∧ (Device.verify known a).action.Recordable := by
  have hdecoded := trimmed_of_decode h
  exact ⟨hdecoded.recordable, (Device.trimmed_verify hdecoded known).recordable⟩

/-- On a machine without disks, a reply that would erase one, and what is answered in its place. -/
theorem Reply.recordable_of_erasure :
    decode (Action.target ⟨.command, "wipefs -a /dev/sdz", some "Erase it."⟩ ++ "") =
        .ok ⟨.command, "wipefs -a /dev/sdz", some "Erase it."⟩ ∧
      Action.Recordable ⟨.command, "wipefs -a /dev/sdz", some "Erase it."⟩ ∧
      (Device.verify ⟨[]⟩
        ⟨.command, "wipefs -a /dev/sdz", some "Erase it."⟩).action.Recordable := by
  have hmake : Action.make .command "wipefs -a /dev/sdz" (some "Erase it.") =
      .ok ⟨.command, "wipefs -a /dev/sdz", some "Erase it."⟩ := by decide
  have hfree : Action.DelimiterFree ⟨.command, "wipefs -a /dev/sdz", some "Erase it."⟩ :=
    Action.delimiterFree_of_no_bracket (by decide) (by decide)
  have hdecode := Action.decode_target_append (e := "") (Action.trimmed_of_make hmake).1 hfree
    Action.silent_nil
  exact ⟨hdecode, recordable_of_decode hdecode ⟨[]⟩⟩

end InstallAssistant
