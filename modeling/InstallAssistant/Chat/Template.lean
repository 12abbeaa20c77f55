import InstallAssistant.Chat.Conversation
import InstallAssistant.Text.Blank
import InstallAssistant.Text.Lines

/-!
# InstallAssistant.Chat.Template

How turns and tools become the text that a model reads.  A template may be any
function; `chatML` is the one in use: each turn is

```
<|im_start|>role
content<|im_end|>
```

and ends in a line break.  Tools go into the first turn when that is a system
turn, and otherwise into a system turn of their own that comes first.
-/

namespace InstallAssistant.Chat

structure Template where
  name : String
  /-- What closes every turn. -/
  endOfTurn : String
  /-- The text of turns, with tools, and the head of the next assistant turn if asked for. -/
  render : (turns : List Turn) → (tools : List Json) → (openReply : Bool) → Except Fault String

namespace ChatML

def turnStart : String := "<|im_start|>"

def turnEnd : String := "<|im_end|>"

/-- The text that tells a model about its tools. -/
def toolsSection (tools : List Json) : String :=
  "\n\n# Tools\n\nYou may call one or more functions to assist with the user query.\n\n" ++
  "You are provided with function signatures within <tools></tools> XML tags:\n<tools>" ++
  String.join (tools.map fun tool => "\n" ++ tool.compact) ++
  "\n</tools>\n\nFor each function call, return a json object with function name and " ++
  "arguments within <tool_call></tool_call> XML tags:\n<tool_call>\n" ++
  "\x7b\"name\": <function-name>, \"arguments\": <args-json-object>\x7d\n</tool_call>"

/-- The turns with the tools put where they belong. -/
def placeTools (tools : List Json) (turns : List Turn) : List Turn :=
  if tools.isEmpty then turns
  else match turns with
    | ⟨.system, content⟩ :: rest => ⟨.system, content ++ toolsSection tools⟩ :: rest
    | turns =>
      ⟨.system, String.ofList (Text.trimStart (toolsSection tools).toList)⟩ :: turns

def renderTurn (t : Turn) : String :=
  turnStart ++ t.role.name ++ "\n" ++ t.content ++ turnEnd ++ "\n"

/-- The head of the assistant turn that is to come. -/
def replyHead : String := turnStart ++ Role.assistant.name ++ "\n"

/-- The first marker in a content. -/
def marker? (content : String) : Option String :=
  [turnStart, turnEnd].find? fun marker => Text.contains marker.toList content.toList

/-- The first turn from position `i` on whose content holds a marker. -/
def markedTurn? (i : Nat) : List Turn → Option Fault
  | [] => none
  | t :: ts =>
    match marker? t.content with
    | some marker => some (.reservedMarker i t.role marker)
    | none => markedTurn? (i + 1) ts

def render (turns : List Turn) (tools : List Json) (openReply : Bool) : Except Fault String :=
  if turns.isEmpty then .error .noTurns
  else match markedTurn? 0 turns with
    | some fault => .error fault
    | none =>
      .ok (String.join ((placeTools tools turns).map renderTurn) ++
        if openReply then replyHead else "")

end ChatML

def chatML : Template := ⟨"chatml", ChatML.turnEnd, ChatML.render⟩

end InstallAssistant.Chat
