import InstallAssistant.Text.Blank
import InstallAssistant.Json.Reader
import InstallAssistant.Json.Printer

/-!
# InstallAssistant.Action

What the assistant does next: it runs a shell command, or it answers in text.  An
action is written in two ways:

* as the expected response of a training record, an object with a `type` and the
  one field that goes with it (`Expected`);
* as the text that the model is trained to produce (`Action.target`): reasoning
  between `<think>` tags, then the tool call between `<tool_call>` tags, or the
  answer.

`Action.make` and `Action.ofExpected` are the ways to build an action from
outside; both trim, and refuse an empty command or answer.
-/

namespace InstallAssistant

inductive Action.Kind
  | command
  | text
deriving DecidableEq, Repr

structure Action where
  kind : Action.Kind
  /-- The command, or the text of the answer. -/
  content : String
  /-- The reasoning that led to it. -/
  thinking : Option String
deriving DecidableEq, Repr

namespace Action

/-- The name of the tool that runs commands. -/
def shellTool : String := "run_shell_command"

/-! ## kinds -/

def Kind.name : Kind → String
  | .command => "command"
  | .text => "text"

def Kind.ofName? : String → Option Kind
  | "command" => some .command
  | "text" => some .text
  | _ => none

/-- The field of a record that holds the content of an action of this kind. -/
def Kind.field : Kind → String
  | .command => "command"
  | .text => "response"

def Kind.other : Kind → Kind
  | .command => .text
  | .text => .command

def Kind.reader : Json.Reader Kind := .word Kind.ofName?

/-! ## building -/

/-- Why there is no action. -/
inductive Refusal
  | empty (kind : Kind)
  | missing (kind : Kind)
  | unexpected (kind : Kind)
deriving DecidableEq, Repr

def Refusal.message : Refusal → String
  | .empty kind => s!"{kind.name} action has an empty {kind.field}"
  | .missing kind => s!"expected_response of type `{kind.name}` is missing `{kind.field}`"
  | .unexpected kind =>
    s!"expected_response of type `{kind.name}` must not carry `{kind.other.field}`"

/-- An action with trimmed content, and trimmed reasoning unless it is blank. -/
def make (kind : Kind) (content : String) (thinking : Option String) : Except Refusal Action :=
  match Text.nonBlank? content with
  | some content => .ok ⟨kind, content, thinking.bind Text.nonBlank?⟩
  | none => .error (.empty kind)

/-! ## expected responses -/

/-- The expected response of a training record, as it is written there. -/
structure Expected where
  kind : Kind
  command : Option String
  response : Option String
  thinking : Option String
deriving DecidableEq, Repr

namespace Expected

def reader : Json.Reader Expected :=
  .record ["type", "command", "response", "thinking"] true fun fields => do
    return {
      kind := ← fields.required "type" Kind.reader
      command := ← fields.optional "command" .string
      response := ← fields.optional "response" .string
      thinking := ← fields.optional "thinking" .string }

def toJson (e : Expected) : Json :=
  .object <| ("type", .string e.kind.name) :: (Json.textMember "command" e.command ++
    Json.textMember "response" e.response ++ Json.textMember "thinking" e.thinking)

def field (e : Expected) : Kind → Option String
  | .command => e.command
  | .text => e.response

end Expected

/-- The action that a record expects.  The field of the other kind must not be there, whatever is
in it. -/
def ofExpected (e : Expected) : Except Refusal Action :=
  if (e.field e.kind.other).isSome then .error (.unexpected e.kind)
  else match e.field e.kind with
    | none => .error (.missing e.kind)
    | some content => make e.kind content e.thinking

def toExpected (a : Action) : Expected :=
  match a.kind with
  | .command => ⟨.command, some a.content, none, a.thinking⟩
  | .text => ⟨.text, none, some a.content, a.thinking⟩

def toJson (a : Action) : Json := a.toExpected.toJson

/-! ## target texts -/

/-- The call of the shell tool with a command. -/
def callJson (command : String) : Json :=
  .object [("name", .string shellTool), ("arguments", .object [("command", .string command)])]

/-- The reasoning as the model writes it before the action. -/
def thinkingBlock (thinking : Option String) : String :=
  match thinking.bind Text.nonBlank? with
  | some t => "<think>\n" ++ t ++ "\n</think>\n"
  | none => ""

/-- The text that the model is trained to produce for an action. -/
def target (a : Action) : String :=
  thinkingBlock a.thinking ++
    match a.kind with
    | .command => "<tool_call>\n" ++ (callJson a.content).compact ++ "\n</tool_call>"
    | .text => a.content

end Action

end InstallAssistant
