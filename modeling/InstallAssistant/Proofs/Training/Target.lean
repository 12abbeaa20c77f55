import InstallAssistant.Chat.Tools
import InstallAssistant.Proofs.Chat.Prompt
import InstallAssistant.Proofs.Chat.Template
import InstallAssistant.Proofs.Encoder.Bytes
import InstallAssistant.Proofs.Reply.Target
import InstallAssistant.Proofs.Training.Compiler

/-!
# InstallAssistant.Proofs.Training.Target

What a model is trained to produce.  With `chatML` and the encoder of bytes, the
ids of a row that count spell the target and the end of its turn, and the decoder
makes the action of it again (`decode_targetIds_compile`).
-/

namespace InstallAssistant.Training.Compiler

open Chat

/-! ## targets -/

/-- The compiler with `chatML` and the encoder of bytes. -/
def ofBytes (tools : List Json) (maxLength : Nat) (special : Bool) : Compiler :=
  ⟨⟨chatML, tools⟩, Encoder.bytes, maxLength, special⟩

theorem prompt_chatML (tools : List Json) (conversation : Conversation) :
    Prompter.prompt ⟨chatML, tools⟩ conversation =
      ChatML.render (Prompter.prepare conversation).turns tools true := by
  simp only [Prompter.prompt, chatML]

theorem full_chatML (tools : List Json) (conversation : Conversation) (target : String) :
    Prompter.full ⟨chatML, tools⟩ conversation target =
      ChatML.render ((Prompter.prepare conversation).turns ++ [⟨.assistant, target⟩]) tools
        false := by
  simp only [Prompter.full, chatML, Conversation.withTrailing]

theorem encode_ofBytes (tools : List Json) (maxLength : Nat) (special : Bool) (text : String) :
    (ofBytes tools maxLength special).encode text = .ok (Encoder.Bytes.encode text special) := rfl

theorem prompt_ofBytes (tools : List Json) (maxLength : Nat) (special : Bool)
    (conversation : Conversation) :
    (ofBytes tools maxLength special).prompter.prompt conversation =
      ChatML.render (Prompter.prepare conversation).turns tools true :=
  prompt_chatML tools conversation

theorem full_ofBytes (tools : List Json) (maxLength : Nat) (special : Bool)
    (conversation : Conversation) (target : String) :
    (ofBytes tools maxLength special).prompter.full conversation target =
      ChatML.render ((Prompter.prepare conversation).turns ++ [⟨.assistant, target⟩]) tools
        false :=
  full_chatML tools conversation target

/-- Ids of bytes are no padding. -/
theorem filter_map_idOf (bs : List UInt8) :
    (bs.map Encoder.Bytes.idOf).filter (· != Encoder.Bytes.padId) = bs.map Encoder.Bytes.idOf := by
  rw [List.filter_eq_self]
  intro id hid
  obtain ⟨b, _, rfl⟩ := List.mem_map.mp hid
  simpa using Encoder.Bytes.idOf_ne_pad b

/-- **The ids that count spell the target** and the end of its turn, in a row that has room for
all ids. -/
theorem targetIds_compileTarget {tools : List Json} {maxLength : Nat} {special : Bool}
    {conversation : Conversation} {target full : String} {row : Row} {ids : List UInt32}
    (hrow : (ofBytes tools maxLength special).compileTarget conversation target = .ok row)
    (hfull : (ofBytes tools maxLength special).prompter.full conversation target = .ok full)
    (hids : (ofBytes tools maxLength special).encode full = .ok ids)
    (hfit : ids.length ≤ maxLength) :
    row.targetIds =
      (Text.Utf8.encode (target ++ (ChatML.turnEnd ++ "\n"))).map Encoder.Bytes.idOf := by
  obtain ⟨prompt, hprompt, full', hfull', _, promptIds, hp, fullIds, hf, _, _, rfl⟩ :=
    compileTarget_eq_ok_iff.mp hrow
  rw [hfull] at hfull'
  obtain rfl := Except.ok.inj hfull'
  rw [hids] at hf
  obtain rfl := Except.ok.inj hf
  rw [encode_ofBytes] at hp hids
  obtain rfl := Except.ok.inj hp
  obtain rfl := Except.ok.inj hids
  rw [prompt_ofBytes] at hprompt
  rw [full_ofBytes] at hfull
  have htext := ChatML.render_append_reply hprompt hfull
  have hdrop : (Encoder.Bytes.encode full special).drop
      (Encoder.Bytes.encode prompt special).length =
        (Text.Utf8.encode (target ++ (ChatML.turnEnd ++ "\n"))).map Encoder.Bytes.idOf := by
    rw [htext, Encoder.Bytes.encode_append, List.drop_left]
  have hpad : (ofBytes tools maxLength special).encoder.pad = Encoder.Bytes.padId := rfl
  have hmax : (ofBytes tools maxLength special).maxLength = maxLength := rfl
  rw [targetIds_ofTokens, hmax, hpad, List.take_of_length_le hfit, hdrop, filter_map_idOf]

/-- The ids of the whole text go on behind those of the prompt. -/
theorem exists_fullIds_eq {tools : List Json} {maxLength : Nat} {conversation : Conversation}
    {target prompt full : String} (special : Bool)
    (hprompt : (ofBytes tools maxLength special).prompter.prompt conversation = .ok prompt)
    (hfull : (ofBytes tools maxLength special).prompter.full conversation target = .ok full) :
    ∃ id rest, Encoder.Bytes.encode full special =
      Encoder.Bytes.encode prompt special ++ id :: rest := by
  rw [prompt_ofBytes] at hprompt
  rw [full_ofBytes] at hfull
  have hne :
      (Text.Utf8.encode (target ++ (ChatML.turnEnd ++ "\n"))).map Encoder.Bytes.idOf ≠ [] := by
    have hend : Text.Utf8.encode (ChatML.turnEnd ++ "\n") ≠ [] := by decide
    rw [Text.Utf8.encode_append]
    simp [hend]
  obtain ⟨id, rest, hcons⟩ := List.exists_cons_of_ne_nil hne
  rw [ChatML.render_append_reply hprompt hfull, Encoder.Bytes.encode_append, hcons]
  exact ⟨id, rest, rfl⟩

section

variable {tools : List Json} {maxLength : Nat} {special : Bool} {conversation : Conversation}
  {target prompt full : String}

/-- Whatever can be rendered can be encoded. -/
theorem encodes_ofBytes
    (hprompt : (ofBytes tools maxLength special).prompter.prompt conversation = .ok prompt)
    (hfull : (ofBytes tools maxLength special).prompter.full conversation target = .ok full) :
    (ofBytes tools maxLength special).Encodes conversation target
      (Encoder.Bytes.encode prompt special) (Encoder.Bytes.encode full special) := by
  refine ⟨prompt, full, hprompt, hfull, ?_, rfl, rfl⟩
  rw [prompt_ofBytes] at hprompt
  rw [full_ofBytes] at hfull
  rw [ChatML.render_append_reply hprompt hfull, String.toList_append]
  exact List.prefix_append _ _

/-- **Ids never part**: whatever can be rendered has a row, unless the prompt fills it. -/
theorem compileTarget_ofBytes_eq
    (hprompt : (ofBytes tools maxLength special).prompter.prompt conversation = .ok prompt)
    (hfull : (ofBytes tools maxLength special).prompter.full conversation target = .ok full) :
    (ofBytes tools maxLength special).compileTarget conversation target =
      if maxLength ≤ (Encoder.Bytes.encode prompt special).length then
        .error (.promptOverflow (Encoder.Bytes.encode prompt special).length maxLength)
      else
        .ok (.ofTokens (Encoder.Bytes.encode full special)
          (Encoder.Bytes.encode prompt special).length maxLength Encoder.Bytes.padId) := by
  rw [compileTarget_eq (encodes_ofBytes hprompt hfull),
    divergence?_eq_none_iff.mpr (exists_fullIds_eq special hprompt hfull)]
  rfl

/-- **There is a row** for whatever can be rendered, if it is longer than the prompt. -/
theorem compileTarget_ofBytes
    (hprompt : (ofBytes tools maxLength special).prompter.prompt conversation = .ok prompt)
    (hfull : (ofBytes tools maxLength special).prompter.full conversation target = .ok full)
    (hroom : (Encoder.Bytes.encode prompt special).length < maxLength) :
    (ofBytes tools maxLength special).compileTarget conversation target =
      .ok (.ofTokens (Encoder.Bytes.encode full special)
        (Encoder.Bytes.encode prompt special).length maxLength Encoder.Bytes.padId) := by
  rw [compileTarget_ofBytes_eq hprompt hfull, if_neg (Nat.not_le.mpr hroom)]

end

/-- A conversation without brackets can be rendered, with any reply that holds no marker. -/
theorem exists_renderings (conversation : Conversation) (target : String)
    (hsystem : '<' ∉ (systemPrompt (conversation.context.getD typicalFacts.context)).toList)
    (hturns : ∀ t ∈ conversation.turns, '<' ∉ t.content.toList)
    (htarget : ChatML.marker? target = none) (tools : List Json) :
    ∃ prompt full, Prompter.prompt ⟨chatML, tools⟩ conversation = .ok prompt ∧
      Prompter.full ⟨chatML, tools⟩ conversation target = .ok full := by
  have hplain : ∀ t ∈ (Prompter.prepare conversation).turns, ChatML.marker? t.content = none := by
    intro t ht
    apply ChatML.marker?_eq_none
    simp only [Prompter.prepare, Conversation.withLeading, List.mem_cons] at ht
    rcases ht with rfl | ht
    · exact hsystem
    · exact hturns t ht
  have hreply : ∀ t ∈ [(⟨.assistant, target⟩ : Turn)], ChatML.marker? t.content = none :=
    List.forall_mem_singleton.mpr htarget
  obtain ⟨prompt, hprompt⟩ : ∃ prompt,
      ChatML.render (Prompter.prepare conversation).turns tools true = .ok prompt :=
    ChatML.exists_render_iff.mpr ⟨List.cons_ne_nil _ _, hplain⟩
  obtain ⟨full, hfull⟩ := ChatML.exists_render_iff.mpr
    ⟨by simp, List.forall_mem_append.mpr ⟨hplain, hreply⟩⟩
  exact ⟨prompt, full, (prompt_chatML tools _).trans hprompt, (full_chatML tools _ _).trans hfull⟩

/-- A conversation without brackets has a row, if the rows are long enough. -/
theorem exists_compileTarget_ofBytes (conversation : Conversation) (target : String)
    (hsystem : '<' ∉ (systemPrompt (conversation.context.getD typicalFacts.context)).toList)
    (hturns : ∀ t ∈ conversation.turns, '<' ∉ t.content.toList) (htarget : '<' ∉ target.toList)
    (tools : List Json) (special : Bool) :
    ∃ maxLength row, 0 < maxLength ∧
      (ofBytes tools maxLength special).compileTarget conversation target = .ok row := by
  obtain ⟨prompt, full, hprompt, hfull⟩ :=
    exists_renderings conversation target hsystem hturns (ChatML.marker?_eq_none htarget) tools
  let maxLength := (Encoder.Bytes.encode prompt special).length + 1
  exact ⟨maxLength, _, Nat.succ_pos _, compileTarget_ofBytes hprompt hfull (Nat.lt_succ_self _)⟩

/-! ## the decoded target -/

/-- The end of a turn says nothing. -/
theorem silent_turnEnd : Action.Silent (ChatML.turnEnd ++ "\n").toList := by
  have hscan : Markup.scan (ChatML.turnEnd ++ "\n").toList =
      [.tag "|im_end|".toList, .char '\n'] := by
    have htext : (ChatML.turnEnd ++ "\n").toList = Markup.tagText "|im_end|" ++ ['\n'] := by
      decide
    rw [htext, Markup.scan_tagText_append rfl rfl, Markup.scan_char (by decide), Markup.scan_nil]
  refine ⟨Markup.fresh_bracket _, ⟨?_, ?_⟩, ?_, by decide, ?_⟩
  · rw [hscan]
    decide
  · rw [hscan]
    decide
  · rw [hscan]
    decide
  · have hstrip : Markup.strip [.tag "|im_end|".toList, .char '\n'] = ['\n'] := rfl
    rw [hscan, hstrip]
    exact Text.isBlank_break

/-- **What is trained is what is decoded**: the ids of a row that count spell the target and the
end of its turn, and the decoder makes the action of that text again. -/
theorem decode_targetIds_compile {tools : List Json} {maxLength : Nat} {special : Bool}
    {conversation : Conversation} {kind : Action.Kind} {content : String}
    {thinking : Option String} {a : Action} {row : Row} {full : String} {ids : List UInt32}
    (ha : Action.make kind content thinking = .ok a) (hd : a.DelimiterFree)
    (hrow : (ofBytes tools maxLength special).compile conversation a = .ok row)
    (hfull : (ofBytes tools maxLength special).prompter.full conversation a.target = .ok full)
    (hids : (ofBytes tools maxLength special).encode full = .ok ids)
    (hfit : ids.length ≤ maxLength) :
    Encoder.bytes.decode row.targetIds = .ok (a.target ++ "<|im_end|>\n") ∧
      Reply.decode (a.target ++ "<|im_end|>\n") = .ok a := by
  have hend : ChatML.turnEnd ++ "\n" = "<|im_end|>\n" := by decide
  obtain ⟨ht, _⟩ := Action.trimmed_of_make ha
  constructor
  · rw [targetIds_compileTarget hrow hfull hids hfit, hend]
    exact Encoder.Bytes.decode_map_idOf _
  · rw [← hend]
    exact Action.decode_target_append ht hd silent_turnEnd

theorem decode_targetIds_lsblk :
    ∃ maxLength row,
      (ofBytes [shellTool] maxLength true).compile ⟨some "Disks: sda", [⟨.user, "list disks"⟩]⟩
          ⟨.command, "lsblk", none⟩ = .ok row ∧
        Encoder.bytes.decode row.targetIds =
            .ok (Action.target ⟨.command, "lsblk", none⟩ ++ "<|im_end|>\n") ∧
          Reply.decode (Action.target ⟨.command, "lsblk", none⟩ ++ "<|im_end|>\n") =
            .ok ⟨.command, "lsblk", none⟩ := by
  have hsystem : ChatML.marker? (systemPrompt "Disks: sda") = none :=
    ChatML.marker?_eq_none (bracket_notMem_systemPrompt (by decide))
  have huser : ChatML.marker? "list disks" = none := ChatML.marker?_eq_none (by decide)
  have hreply : ChatML.marker? (Action.target ⟨.command, "lsblk", none⟩) = none := by
    decide +kernel
  let turns : List Turn := [⟨.system, systemPrompt "Disks: sda"⟩, ⟨.user, "list disks"⟩]
  have hprepare :
      (Prompter.prepare ⟨some "Disks: sda", [⟨.user, "list disks"⟩]⟩).turns = turns := by
    simp only [Prompter.prepare, Conversation.withLeading, Option.getD_some, turns]
  obtain ⟨prompt, hprompt⟩ : ∃ prompt, ChatML.render turns [shellTool] true = .ok prompt := by
    refine ⟨_, ChatML.render_eq_ok_iff.mpr ⟨List.cons_ne_nil _ _, ?_, rfl⟩⟩
    simp [ChatML.markedTurn?_eq_none_iff, turns, hsystem, huser]
  obtain ⟨full, hfull⟩ : ∃ full, ChatML.render
      (turns ++ [⟨.assistant, Action.target ⟨.command, "lsblk", none⟩⟩]) [shellTool] false =
        .ok full := by
    refine ⟨_, ChatML.render_eq_ok_iff.mpr ⟨List.cons_ne_nil _ _, ?_, rfl⟩⟩
    simp [ChatML.markedTurn?_eq_none_iff, turns, hsystem, huser, hreply]
  rw [← hprepare] at hprompt hfull
  let ids := Encoder.Bytes.encode full true
  have hp := (prompt_ofBytes [shellTool] ids.length true _).trans hprompt
  have hf := (full_ofBytes [shellTool] ids.length true _ _).trans hfull
  have hroom : (Encoder.Bytes.encode prompt true).length < ids.length := by
    obtain ⟨id, rest, hids⟩ := exists_fullIds_eq true hp hf
    simp [ids, hids]
  have hd : Action.DelimiterFree ⟨.command, "lsblk", none⟩ :=
    Action.delimiterFree_of_no_bracket (by decide) (by decide)
  have ha : Action.make .command "lsblk" none = .ok ⟨.command, "lsblk", none⟩ := by decide
  have hrow := compileTarget_ofBytes hp hf hroom
  exact ⟨ids.length, _, hrow, decode_targetIds_compile ha hd hrow hf
    (encode_ofBytes _ _ _ _) (Nat.le_refl _)⟩

end InstallAssistant.Training.Compiler
