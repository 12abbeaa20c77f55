import InstallAssistant.Json.Reader
import InstallAssistant.Json.Printer

/-!
# InstallAssistant.Chat.Conversation

Conversations: turns with a role each, and the facts block that goes into the
system prompt.  Turns may come in any order.  Messages are turns as they travel,
with a role that is not checked yet.
-/

namespace InstallAssistant.Chat

/-! ## roles and turns -/

inductive Role
  | system
  | user
  | assistant
deriving DecidableEq, Repr

def Role.name : Role → String
  | .system => "system"
  | .user => "user"
  | .assistant => "assistant"

structure Turn where
  role : Role
  content : String
deriving DecidableEq, Repr

/-- Why a conversation cannot be built or rendered. -/
inductive Fault
  | unsupportedRole (name : String)
  | reservedMarker (turn : Nat) (role : Role) (marker : String)
  | noTurns
deriving DecidableEq, Repr

def Fault.message : Fault → String
  | .unsupportedRole name => s!"unsupported role `{name}`"
  | .reservedMarker turn role marker =>
    s!"turn {turn} ({role.name}) contains reserved marker `{marker}`"
  | .noTurns => "conversation has no turns"

def Role.ofName (name : String) : Except Fault Role :=
  match name with
  | "system" => .ok .system
  | "user" => .ok .user
  | "assistant" => .ok .assistant
  | name => .error (.unsupportedRole name)

/-! ## messages -/

structure Message where
  role : String
  content : String
deriving DecidableEq, Repr

def Message.reader : Json.Reader Message :=
  .record ["role", "content"] false fun fields => do
    return {
      role := ← fields.required "role" .string
      content := ← fields.required "content" .string }

def Message.toJson (m : Message) : Json :=
  .object [("role", .string m.role), ("content", .string m.content)]

def Message.turn (m : Message) : Except Fault Turn :=
  (Role.ofName m.role).map fun role => ⟨role, m.content⟩

/-! ## conversations -/

structure Conversation where
  context : Option String
  turns : List Turn
deriving DecidableEq, Repr

namespace Conversation

/-- The conversation of some messages; the first role that is not known is an error. -/
def ofMessages (context : Option String) (messages : List Message) :
    Except Fault Conversation :=
  (messages.mapM Message.turn).map fun turns => ⟨context, turns⟩

def withLeading (c : Conversation) (t : Turn) : Conversation := ⟨c.context, t :: c.turns⟩

def withTrailing (c : Conversation) (t : Turn) : Conversation := ⟨c.context, c.turns ++ [t]⟩

def last? (c : Conversation) : Option Turn := c.turns.getLast?

/-- The conversation without its last turn, and that turn. -/
def splitLast? (c : Conversation) : Option (Conversation × Turn) :=
  c.turns.getLast?.map fun t => (⟨c.context, c.turns.dropLast⟩, t)

/-! ## laws -/

@[simp] theorem splitLast?_withTrailing (c : Conversation) (t : Turn) :
    (c.withTrailing t).splitLast? = some (c, t) := by
  simp [splitLast?, withTrailing]

end Conversation

end InstallAssistant.Chat
