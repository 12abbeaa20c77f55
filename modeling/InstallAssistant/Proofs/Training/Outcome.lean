import InstallAssistant.Proofs.Training.Target

/-!
# InstallAssistant.Proofs.Training.Outcome

What may become of a conversation with a target.  Behind the prompt of `chatML`
the whole text goes on with the reply and the end of its turn, so with the
encoder of bytes neither the texts nor the ids ever part: there is a row, unless
something cannot be rendered or the prompt leaves no room
(`full_continues_prompt`).
-/

namespace InstallAssistant.Training.Compiler

open Chat

/-! ## what cannot be rendered -/

section

variable {c : Compiler} {conversation : Conversation} {target prompt : String}
  {fault : Chat.Fault}

theorem compileTarget_of_prompt_error (h : c.prompter.prompt conversation = .error fault) :
    c.compileTarget conversation target = .error (.template fault) := by
  simp [compileTarget, h, Except.mapError, bind, Except.bind]

theorem compileTarget_of_full_error (hprompt : c.prompter.prompt conversation = .ok prompt)
    (h : c.prompter.full conversation target = .error fault) :
    c.compileTarget conversation target = .error (.template fault) := by
  simp [compileTarget, hprompt, h, Except.mapError, bind, Except.bind]

end

/-! ## what becomes of a conversation -/

/-- There are three outcomes, one for each way that the two renderings and the length can go. -/
theorem compileTarget_ofBytes_cases (tools : List Json) (maxLength : Nat) (special : Bool)
    (conversation : Conversation) (target : String) :
    (∃ row, (ofBytes tools maxLength special).compileTarget conversation target = .ok row) ∨
    (∃ fault, (ofBytes tools maxLength special).compileTarget conversation target =
      .error (.template fault)) ∨
    ∃ promptTokens, (ofBytes tools maxLength special).compileTarget conversation target =
      .error (.promptOverflow promptTokens maxLength) := by
  cases hprompt : (ofBytes tools maxLength special).prompter.prompt conversation with
  | error fault => exact .inr (.inl ⟨fault, compileTarget_of_prompt_error hprompt⟩)
  | ok prompt =>
      cases hfull : (ofBytes tools maxLength special).prompter.full conversation target with
      | error fault => exact .inr (.inl ⟨fault, compileTarget_of_full_error hprompt hfull⟩)
      | ok full =>
          rw [compileTarget_ofBytes_eq hprompt hfull]
          split
          · exact .inr (.inr ⟨_, rfl⟩)
          · exact .inl ⟨_, rfl⟩

/-- **The whole text goes on where the prompt ends.**  Behind some turns in any order, an assistant
turn can be rendered exactly if the prompt for it can and no marker is in it, and it adds its content
and the end of the turn to the prompt.  So with the encoder of bytes a target has a row, or it cannot
be rendered, or the prompt leaves no room for it: a prompt is never found to be no beginning, ids do
not part, and there is no text without ids. -/
theorem full_continues_prompt (tools : List Json) :
    (∀ (turns : List Turn) (reply : String), turns ≠ [] →
      ((∃ full, ChatML.render (turns ++ [⟨.assistant, reply⟩]) tools false = .ok full) ↔
        (∃ prompt, ChatML.render turns tools true = .ok prompt) ∧
          ¬ "<|im_start|>".toList <:+: reply.toList ∧ ¬ "<|im_end|>".toList <:+: reply.toList) ∧
      ∀ full, ChatML.render (turns ++ [⟨.assistant, reply⟩]) tools false = .ok full →
        ∃ prompt, ChatML.render turns tools true = .ok prompt ∧
          full = prompt ++ reply ++ "<|im_end|>\n") ∧
    ∀ (maxLength : Nat) (special : Bool) (conversation : Conversation) (target : String),
      (∃ row, (ofBytes tools maxLength special).compileTarget conversation target = .ok row) ∨
      (∃ fault, (ofBytes tools maxLength special).compileTarget conversation target =
        .error (.template fault)) ∨
      ∃ promptTokens, (ofBytes tools maxLength special).compileTarget conversation target =
        .error (.promptOverflow promptTokens maxLength) := by
  refine ⟨fun turns reply hturns => ?_, compileTarget_ofBytes_cases tools⟩
  have hmarker : ChatML.marker? reply = none ↔
      ¬ "<|im_start|>".toList <:+: reply.toList ∧ ¬ "<|im_end|>".toList <:+: reply.toList := by
    simp [ChatML.marker?_eq_none_iff, ChatML.turnStart, ChatML.turnEnd]
  have hend : ChatML.turnEnd ++ "\n" = "<|im_end|>\n" := by decide
  constructor
  · simp only [ChatML.render_append_reply_eq_ok_iff hturns, ← hmarker]
    constructor
    · intro ⟨_, hreply, prompt, hprompt, _⟩
      exact ⟨⟨prompt, hprompt⟩, hreply⟩
    · intro ⟨⟨prompt, hprompt⟩, hreply⟩
      exact ⟨_, hreply, prompt, hprompt, rfl⟩
  · intro full hfull
    obtain ⟨_, prompt, hprompt, htext⟩ :=
      (ChatML.render_append_reply_eq_ok_iff hturns).mp hfull
    exact ⟨prompt, hprompt, by rw [htext, hend, String.append_assoc]⟩

/-- Tools before a question, with the system turn behind it and an empty reply. -/
theorem full_continues_late_system :
    let turns : List Turn := [⟨.user, "list disks"⟩, ⟨.system, "Disks: sda"⟩]
    turns ≠ [] ∧ ∃ prompt full, ChatML.render turns [shellTool] true = .ok prompt ∧
      ChatML.render (turns ++ [⟨.assistant, ""⟩]) [shellTool] false = .ok full ∧
      full = prompt ++ "" ++ "<|im_end|>\n" := by
  intro turns
  have hturns : turns ≠ [] := List.cons_ne_nil _ _
  have hplain : ∀ t ∈ turns, ChatML.marker? t.content = none := by decide
  obtain ⟨hiff, htext⟩ := (full_continues_prompt [shellTool]).1 turns "" hturns
  obtain ⟨full, hfull⟩ :=
    hiff.mpr ⟨ChatML.exists_render_iff.mpr ⟨hturns, hplain⟩, by decide, by decide⟩
  obtain ⟨prompt, hprompt, heq⟩ := htext full hfull
  exact ⟨hturns, prompt, full, hprompt, hfull, heq⟩

end InstallAssistant.Training.Compiler
