import InstallAssistant.Action
import InstallAssistant.Failure
import InstallAssistant.Markup
import InstallAssistant.Text.Lines

/-!
# InstallAssistant.Reply

From generated text to an action.  What matches first decides:

1. a `<think>` block is cut out and kept as reasoning; without its end it reaches
   to the end of the text, and an end alone closes reasoning that began before
   the text;
2. a `<tool_call>` block, up to its end, a control tag or the end of the text,
   must hold a call of the shell tool;
3. anything else is an answer, without its tags.
-/

namespace InstallAssistant.Reply

open Markup

/-! ## faults -/

inductive CallFault
  | notJson
  | unknownTool (name : String)
  | missingName
  | argumentsNotJson
  | noCommand
deriving DecidableEq, Repr

inductive Fault
  | malformedCall (fault : CallFault)
  | empty
deriving DecidableEq, Repr

def CallFault.message : CallFault → String
  | .notJson => s!"invalid JSON: {Failure.json}"
  | .unknownTool name => s!"unknown tool `{name}`"
  | .missingName => "missing tool name"
  | .argumentsNotJson => s!"invalid arguments JSON: {Failure.json}"
  | .noCommand => "missing or empty command"

def Fault.message : Fault → String
  | .malformedCall fault => s!"malformed tool call: {fault.message}"
  | .empty => "model produced an empty response"

/-! ## the parts of a reply -/

/-- Reasoning that is worth keeping: trimmed, and not blank. -/
def reasoning? (s : List Char) : Option String := Text.nonBlank? (String.ofList s)

/-- The reasoning in a text, and the text without it. -/
def splitReasoning (s : List Char) : Option String × List Char :=
  let pieces := scan s
  match cutAt? "think" pieces with
  | some (front, rest) =>
    match cutAt? "/think" rest with
    | some (inside, rest) => (reasoning? (spell inside), spell front ++ spell rest)
    | none => (reasoning? (spell rest), spell front)
  | none =>
    match cutAt? "/think" pieces with
    | some (inside, rest) => (reasoning? (spell inside), spell rest)
    | none => (none, s)

/-- Whether a piece ends a tool call: its closing tag, or a control tag. -/
def endsCall : Piece → Bool
  | .tag name => name == "/tool_call".toList || name.head? == some '|'
  | .char _ => false

/-- What stands in the first tool call of a text. -/
def callPayload? (body : List Char) : Option (List Char) :=
  (cutAt? "tool_call" (scan body)).map fun (_, rest) =>
    spell (rest.takeWhile fun p => !endsCall p)

/-! ## tool calls -/

structure Call where
  name : Option String
  arguments : Json

def Call.reader : Json.Reader Call :=
  .record ["name", "arguments"] false fun fields => do
    return {
      name := ← fields.nullable "name" .string
      arguments := ← fields.withDefault "arguments" .null .value }

/-- The arguments of a call, which may be written as a text that holds them. -/
def Call.unwrap? (arguments : Json) : Option Json :=
  match arguments with
  | .string s => Json.parse? s
  | v => some v

/-- The command in the payload of a tool call. -/
def command? (payload : String) : Except CallFault String :=
  match Call.reader.parse? (Text.trim payload) with
  | none => .error .notJson
  | some call =>
    match call.name with
    | none => .error .missingName
    | some name =>
      if name ≠ Action.shellTool then .error (.unknownTool name)
      else match Call.unwrap? call.arguments with
        | none => .error .argumentsNotJson
        | some arguments =>
          match ((arguments.member? "command").bind Json.text?).bind Text.nonBlank? with
          | some command => .ok command
          | none => .error .noCommand

/-! ## replies -/

/-- The action that a generated text stands for. -/
def decode (raw : String) : Except Fault Action :=
  let (thinking, body) := splitReasoning (Text.unifyBreaks raw.toList)
  match callPayload? body with
  | some payload =>
    match command? (String.ofList payload) with
    | .ok command => .ok ⟨.command, command, thinking⟩
    | .error fault => .error (.malformedCall fault)
  | none =>
    match Text.nonBlank? (String.ofList (strip (scan body))) with
    | some answer => .ok ⟨.text, answer, thinking⟩
    | none => .error .empty

end InstallAssistant.Reply
