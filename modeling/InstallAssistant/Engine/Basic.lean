import InstallAssistant.Chat.Prompt
import InstallAssistant.Device.Guard
import InstallAssistant.Duration
import InstallAssistant.Encoder.Basic
import InstallAssistant.Engine.Query
import InstallAssistant.Reply

/-!
# InstallAssistant.Engine.Basic

From a query to an action that may go out.  The conversation becomes the ids of a
prompt, a generator continues them, and the text of what it generated is decoded
and checked against the devices of the machine.

* `Engine.promptIds` and `Engine.sampling`: what the generator is asked;
* `Engine.finish`: what becomes of its outcome;
* `Engine.respond`: the whole, with a generator in any monad.

Only the outcome and the facts go into `Engine.finish`, so a client has no say in
which devices are known.
-/

namespace InstallAssistant

/-! ## generators -/

/-- How tokens are to be chosen, and where to stop. -/
structure Sampling where
  maxTokens : Nat
  temperature : Float32
  topP : Float32
  stop : List String

/-- What comes of generating. -/
inductive Outcome
  | ids (ids : List UInt32)
  | failed (failure : Failure)
  | timedOut
deriving DecidableEq, Repr

/-- A model that continues ids. -/
structure Generator (m : Type → Type) where
  name : String
  generate : List UInt32 → Sampling → m Outcome

/-! ## engines -/

structure EngineSettings where
  maxTokens : Nat := 256
  temperature : Float32 := 0.3
  topP : Float32 := 0.9
  timeout : Duration := .ofSeconds 120
  /-- Whether special tokens go around prompts. -/
  special : Bool := false

structure Engine where
  prompter : Chat.Prompter
  encoder : Encoder
  settings : EngineSettings := {}

namespace Engine

/-- Why a query has no answer. -/
inductive Fault
  | noMessages
  | template (fault : Chat.Fault)
  | tokenizer (message : String)
  | backend (message : String)
  | timedOut (after : Duration)
  | reply (fault : Reply.Fault)
deriving DecidableEq, Repr

/-- The name of a fault's kind. -/
def Fault.kind : Fault → String
  | .noMessages => "empty_request"
  | .template _ => "template_failure"
  | .tokenizer _ => "tokenizer"
  | .backend _ => "backend"
  | .timedOut _ => "timeout"
  | .reply (.malformedCall _) => "malformed_tool_call"
  | .reply .empty => "empty_response"

def Fault.message : Fault → String
  | .noMessages => "request has no messages"
  | .template fault => s!"template: {fault.message}"
  | .tokenizer message => s!"tokenizer: {message}"
  | .backend message => s!"generation backend: {message}"
  | .timedOut after => s!"generation timed out after {after.text}"
  | .reply fault => fault.message

/-! ## before generating -/

/-- The ids that the generator is to continue. -/
def promptIds (e : Engine) (facts : Facts) (q : Query) : Except Fault (List UInt32) := do
  if q.messages.isEmpty then throw .noMessages
  let context := q.context.getD facts.context
  let conversation ←
    (Chat.Conversation.ofMessages (some context) q.messages).mapError .template
  let prompt ← (e.prompter.prompt conversation).mapError .template
  (e.encoder.encode prompt e.settings.special).mapError fun f => .tokenizer f.chain

/-- How the generator is to choose: a query may ask for fewer tokens than the settings allow, but
not for none. -/
def sampling (e : Engine) (q : Query) : Sampling where
  maxTokens := max 1 (min (q.maxTokens.getD e.settings.maxTokens) (max e.settings.maxTokens 1))
  temperature := e.settings.temperature
  topP := e.settings.topP
  stop := [e.prompter.template.endOfTurn]

/-! ## after generating -/

/-- An action that may go out, and the text that it was decoded from. -/
structure Completed where
  raw : String
  verified : Device.Verified
deriving DecidableEq, Repr

/-- What an outcome comes to on a machine. -/
def finish (e : Engine) (facts : Facts) : Outcome → Except Fault Completed
  | .failed failure => .error (.backend failure.chain)
  | .timedOut => .error (.timedOut e.settings.timeout)
  | .ids ids => do
    let raw ← (e.encoder.decode ids).mapError fun f => .tokenizer f.chain
    let action ← (Reply.decode raw).mapError .reply
    return ⟨raw, Device.verify (.ofFacts facts) action⟩

/-- Answers a query on a machine with the given facts. -/
def respond {m : Type → Type} [Monad m] (e : Engine) (g : Generator m) (facts : Facts)
    (q : Query) : m (Except Fault Completed) := do
  match e.promptIds facts q with
  | .error fault => return .error fault
  | .ok ids => return e.finish facts (← g.generate ids (e.sampling q))

end Engine

end InstallAssistant
