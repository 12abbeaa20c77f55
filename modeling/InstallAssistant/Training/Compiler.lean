import InstallAssistant.Chat.Prompt
import InstallAssistant.Encoder.Basic
import InstallAssistant.Training.Record
import InstallAssistant.Training.Row

/-!
# InstallAssistant.Training.Compiler

From conversations to rows.  The prompt and the full text, which is the prompt
with the target as the reply, come from the same prompter and the same encoder.
The ids of the prompt must begin the ids of the full text, and something must
follow them; otherwise there is no row, because a mask that is off by one would
train the wrong tokens.
-/

namespace InstallAssistant.Training

open Chat

/-- Why there is no row. -/
inductive Fault
  | noTarget
  | template (fault : Chat.Fault)
  | promptNotPrefix
  /-- The ids of prompt and full text part at a position. -/
  | tokenBoundary (position : Nat)
  | promptOverflow (promptTokens maxLength : Nat)
  | tokenizer (message : String)
deriving DecidableEq, Repr

/-- The name under which faults of a kind are counted. -/
def Fault.reason : Fault → String
  | .noTarget => "no_target"
  | .template _ => "template_failure"
  | .promptNotPrefix => "prompt_not_prefix"
  | .tokenBoundary _ => "token_boundary"
  | .promptOverflow .. => "prompt_overflow"
  | .tokenizer _ => "tokenizer"

def Fault.message : Fault → String
  | .noTarget => "transcript has no final assistant turn to train on"
  | .template fault => s!"template failure: {fault.message}"
  | .promptNotPrefix => "rendered prompt is not a text prefix of the full example"
  | .tokenBoundary position =>
    s!"prompt tokens diverge from full-text tokens at position {position}"
  | .promptOverflow promptTokens maxLength =>
    s!"prompt takes {promptTokens} tokens, leaving no target within max_length {maxLength}"
  | .tokenizer message => s!"tokenizer: {message}"

/-- What turns conversations into rows of `maxLength` tokens. -/
structure Compiler where
  prompter : Prompter
  encoder : Encoder
  maxLength : Nat
  /-- Whether special tokens go around every text. -/
  special : Bool

namespace Compiler

/-- A compiler, unless its rows would have no length, or its padding is the mark that ends a turn:
labels of padding do not count, so the model would never learn to stop. -/
def make (prompter : Prompter) (encoder : Encoder) (maxLength : Nat) (special : Bool) :
    Except Failure Compiler :=
  let stop := prompter.template.endOfTurn
  if maxLength = 0 then .error ⟨"max_length must be greater than zero", []⟩
  else if encoder.single? stop = some encoder.pad then
    let fault := s!"pad token id {encoder.pad} is the end-of-turn marker `{stop}`"
    .error ⟨s!"{fault}; choose a distinct pad token", []⟩
  else .ok ⟨prompter, encoder, maxLength, special⟩

def encode (c : Compiler) (text : String) : Except Fault (List UInt32) :=
  (c.encoder.encode text c.special).mapError fun f => .tokenizer f.chain

/-- The position where the ids of a prompt fail to be followed by more ids of the full text. -/
def divergence? : (promptIds fullIds : List UInt32) → Option Nat
  | [], [] => some 0
  | [], _ :: _ => none
  | _ :: _, [] => some 0
  | p :: ps, f :: fs => if p = f then (divergence? ps fs).map (· + 1) else some 0

/-- The row of a conversation with a target. -/
def compileTarget (c : Compiler) (conversation : Conversation) (target : String) :
    Except Fault Row := do
  let prompt ← (c.prompter.prompt conversation).mapError .template
  let full ← (c.prompter.full conversation target).mapError .template
  if !prompt.toList.isPrefixOf full.toList then throw .promptNotPrefix
  let promptIds ← c.encode prompt
  let fullIds ← c.encode full
  match divergence? promptIds fullIds with
  | some position => throw (.tokenBoundary position)
  | none =>
    if c.maxLength ≤ promptIds.length then
      throw (.promptOverflow promptIds.length c.maxLength)
    else return .ofTokens fullIds promptIds.length c.maxLength c.encoder.pad

def compile (c : Compiler) (conversation : Conversation) (a : Action) : Except Fault Row :=
  c.compileTarget conversation a.target

/-- The row of a transcript, whose last turn is the target. -/
def compileTranscript (c : Compiler) (transcript : Conversation) : Except Fault Row :=
  match transcript.splitLast? with
  | some (history, ⟨.assistant, target⟩) => c.compileTarget history target
  | _ => .error .noTarget

def compileExample (c : Compiler) (e : Example) : Except Fault Row :=
  match Conversation.ofMessages e.context e.messages with
  | .error fault => .error (.template fault)
  | .ok conversation =>
    match e.expected with
    | some a => c.compile conversation a
    | none => c.compileTranscript conversation

end Compiler

/-! ## many examples -/

/-- Counts by name, in increasing order of the names. -/
abbrev Tally := List (String × Nat)

def Tally.add (name : String) : Tally → Tally
  | [] => [(name, 1)]
  | (n, k) :: rest =>
    if name < n then (name, 1) :: (n, k) :: rest
    else if name = n then (n, k + 1) :: rest
    else (n, k) :: Tally.add name rest

def Tally.total (t : Tally) : Nat := t.foldr (fun entry n => entry.2 + n) 0

def Tally.toJson (t : Tally) : Json := .object (t.map fun (name, k) => (name, .nat k))

/-- What became of the examples. -/
structure Stats where
  total : Nat
  compiled : Nat
  /-- How many were dropped, by reason. -/
  dropped : Tally
deriving DecidableEq, Repr

def Stats.members (s : Stats) : List (String × Json) :=
  [("total", .nat s.total), ("compiled", .nat s.compiled), ("dropped", s.dropped.toJson)]

/-- The rows of all examples that have one, in order; the others are counted. -/
def Compiler.compileAll (c : Compiler) (examples : List Example) : List Row × Stats :=
  let results := examples.map c.compileExample
  let rows := results.filterMap fun r => r.toOption
  let dropped := results.foldl (fun tally r => match r with
    | .ok _ => tally
    | .error fault => Tally.add fault.reason tally) []
  (rows, ⟨examples.length, rows.length, dropped⟩)

end InstallAssistant.Training
