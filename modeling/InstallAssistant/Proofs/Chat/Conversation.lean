import InstallAssistant.Chat.Conversation
import InstallAssistant.Proofs.Json.Reader

/-!
# InstallAssistant.Proofs.Chat.Conversation

Messages as they travel, and the conversations that are made of them.  A message is
read back from what is written of it; a conversation is checked message by message,
so a reply behind others is checked last.
-/

namespace InstallAssistant.Chat

namespace Message

theorem finite_toJson (m : Message) : m.toJson.finite = true := rfl

theorem reader_toJson (m : Message) (room : Nat) : reader (room + 1) (.ofJson m.toJson) = some m :=
  rfl

/-- **Messages are read back**, all of them and in their order. -/
theorem list_reader_toJson (messages : List Message) (room : Nat) :
    Json.Reader.list reader (room + 2) (.ofJson (.array (messages.map toJson))) = some messages := by
  have hread := Json.Reader.list_ofJson (g := id) messages fun m _ => m.reader_toJson room
  rwa [List.map_id] at hread

end Message

/-- A message of the assistant behind others is checked after them. -/
theorem Conversation.ofMessages_append_reply (context : Option String) (messages : List Message)
    (target : String) :
    ofMessages context (messages ++ [⟨"assistant", target⟩]) =
      (ofMessages context messages).map (·.withTrailing ⟨.assistant, target⟩) := by
  have hturn : Message.turn ⟨"assistant", target⟩ = .ok ⟨.assistant, target⟩ := rfl
  rw [ofMessages, ofMessages, List.mapM_append]
  cases messages.mapM Message.turn with
  | error fault => rfl
  | ok turns =>
      rw [List.mapM_cons, hturn]
      rfl

end InstallAssistant.Chat
