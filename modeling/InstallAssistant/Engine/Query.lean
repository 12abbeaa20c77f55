import InstallAssistant.Chat.Conversation

/-!
# InstallAssistant.Engine.Query

What a client asks: a conversation, and two things that it may set for it.
-/

namespace InstallAssistant

structure Query where
  messages : List Chat.Message
  /-- How many tokens the reply may have; the server has a limit of its own. -/
  maxTokens : Option Nat := none
  /-- A facts block for the system prompt.  It does not change which devices a command may name. -/
  context : Option String := none
deriving DecidableEq, Repr

namespace Query

def reader : Json.Reader Query :=
  .record ["messages", "max_tokens", "system_context"] false fun fields => do
    return {
      messages := ← fields.required "messages" (.list Chat.Message.reader)
      maxTokens := ← fields.optional "max_tokens" (.natural UInt64.size)
      context := ← fields.optional "system_context" .string }

def toJson (q : Query) : Json :=
  .object [("messages", .array (q.messages.map Chat.Message.toJson)),
    ("max_tokens", match q.maxTokens with
      | some n => .nat n
      | none => .null),
    ("system_context", .ofText? q.context)]

end Query

end InstallAssistant
