import InstallAssistant.Chat.Prompt
import InstallAssistant.Proofs.Text

/-!
# InstallAssistant.Proofs.Chat.Prompt

The system prompt brings no marker into a conversation: it has no bracket but
those of the facts (`bracket_notMem_systemPrompt`).
-/

namespace InstallAssistant.Chat

set_option maxRecDepth 4096 in
theorem bracket_notMem_rules : '<' ∉ rules.toList := by
  apply Text.notMem_toList_join (Text.notMem_toList_ofList rfl)
  repeat' refine List.forall_mem_cons.mpr (And.intro ?_ ?_)
  all_goals try with_reducible exact List.forall_mem_nil _
  -- two of the rules are written over two lines
  all_goals try with_reducible apply Text.notMem_toList_append
  all_goals exact Text.notMem_toList_ofList rfl

/-- **The system prompt is plain text** if the facts are. -/
theorem bracket_notMem_systemPrompt {context : String} (h : '<' ∉ context.toList) :
    '<' ∉ (systemPrompt context).toList := by
  have htrim : '<' ∉ (Text.trim context).toList := by
    rw [Text.trim, String.toList_ofList]
    exact fun hin => h ((Text.trimChars_isInfix _).subset hin)
  have hopening := Text.notMem_toList_append
    (s := "You are the installation assistant for this operating system. ")
    (t := "Help the user install it on their machine.\n\n")
    (Text.notMem_toList_ofList (c := '<') rfl) (Text.notMem_toList_ofList rfl)
  have hgap : '<' ∉ "\n\n".toList := Text.notMem_toList_ofList rfl
  exact Text.notMem_toList_append
    (Text.notMem_toList_append (Text.notMem_toList_append hopening htrim) hgap)
    bracket_notMem_rules

end InstallAssistant.Chat
