import InstallAssistant.Engine.Basic

/-!
# InstallAssistant.Engine.Answer

Answers as they travel: what has been decided, or why nothing has.
-/

namespace InstallAssistant

/-- An answer.  One that is read from outside may have any combination of fields. -/
structure Answer where
  success : Bool
  kind : Option Action.Kind := none
  command : Option String := none
  response : Option String := none
  thinking : Option String := none
  /-- What was blocked, and what to run instead, when a command was replaced. -/
  warning : Option String := none
  suggestedCommand : Option String := none
  error : Option String := none
  errorKind : Option String := none
deriving DecidableEq, Repr

namespace Answer

def ofVerified (v : Device.Verified) : Answer where
  success := true
  kind := some v.action.kind
  command := match v.action.kind with
    | .command => some v.action.content
    | .text => none
  response := match v.action.kind with
    | .command => none
    | .text => some v.action.content
  thinking := v.action.thinking
  warning := v.downgrade.map Device.Downgrade.warning
  suggestedCommand := v.downgrade.map Device.Downgrade.suggestedCommand

def ofFailure (kind message : String) : Answer :=
  { success := false, error := some message, errorKind := some kind }

def ofFault (f : Engine.Fault) : Answer := ofFailure f.kind f.message

def ofResult : Except Engine.Fault Engine.Completed → Answer
  | .ok c => ofVerified c.verified
  | .error fault => ofFault fault

/-! ## JSON -/

/-- Only the fields that are there are written. -/
def toJson (a : Answer) : Json :=
  .object <| ("success", .bool a.success) ::
    (Json.textMember "type" (a.kind.map Action.Kind.name) ++
      Json.textMember "command" a.command ++ Json.textMember "response" a.response ++
      Json.textMember "thinking" a.thinking ++ Json.textMember "warning" a.warning ++
      Json.textMember "suggested_command" a.suggestedCommand ++
      Json.textMember "error" a.error ++ Json.textMember "kind" a.errorKind)

def reader : Json.Reader Answer :=
  .record ["success", "type", "command", "response", "thinking", "warning", "suggested_command",
      "error", "kind"] false fun fields => do
    return {
      success := ← fields.required "success" .bool
      kind := ← fields.optional "type" Action.Kind.reader
      command := ← fields.optional "command" .string
      response := ← fields.optional "response" .string
      thinking := ← fields.optional "thinking" .string
      warning := ← fields.optional "warning" .string
      suggestedCommand := ← fields.optional "suggested_command" .string
      error := ← fields.optional "error" .string
      errorKind := ← fields.optional "kind" .string }

end Answer

/-- Answers a query on a machine with the given facts, in the form that travels. -/
def Engine.answer {m : Type → Type} [Monad m] (e : Engine) (g : Generator m) (facts : Facts)
    (q : Query) : m Answer :=
  Answer.ofResult <$> e.respond g facts q

/-- Answers a query on the machine as it is at this moment.  Its facts are asked for once, and not
at all for a query without messages. -/
def Engine.query {m : Type → Type} [Monad m] (e : Engine) (g : Generator m) (facts : m Facts)
    (q : Query) : m Answer := do
  if q.messages.isEmpty then return .ofFault .noMessages
  else e.answer g (← facts) q

end InstallAssistant
