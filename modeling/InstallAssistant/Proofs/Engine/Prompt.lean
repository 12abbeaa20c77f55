import InstallAssistant.Engine.Basic
import InstallAssistant.Proofs.Training.Compiler

/-!
# InstallAssistant.Proofs.Engine.Prompt

A model is asked what it was trained on.  The compiler and the engine make their
prompts apart from each other, and the compiler cuts its rows off; but a row is
only made if all of its prompt fits, so the prompt in a row is the one that the
generator gets for the same messages and the same context (`run_respond_recorded`).

Where there is no context, the compiler takes typical facts
(`Training.Compiler.compileExample_typical`) and the engine those of the machine
(`Engine.respond_live`), so the prompts are the same if these are
(`run_respond_recorded_of_absent`).
-/

namespace InstallAssistant

open Chat
open Training (Compiler Row)

/-! ## absent contexts -/

/-- A conversation with a context for the case that it has none. -/
def Chat.Conversation.orContext (c : Conversation) (context : String) : Conversation :=
  ⟨some (c.context.getD context), c.turns⟩

theorem Chat.Conversation.ofMessages_getD (context : Option String) (other : String)
    (messages : List Message) :
    ofMessages (some (context.getD other)) messages =
      (ofMessages context messages).map (·.orContext other) := by
  rw [ofMessages, ofMessages]
  cases messages.mapM Message.turn <;> rfl

namespace Training.Compiler

theorem compileTarget_orContext (c : Compiler) (conversation : Conversation) (target : String) :
    c.compileTarget (conversation.orContext typicalFacts.context) target =
      c.compileTarget conversation target := rfl

theorem compileTranscript_orContext (c : Compiler) (transcript : Conversation) :
    c.compileTranscript (transcript.orContext typicalFacts.context) =
      c.compileTranscript transcript := by
  rw [compileTranscript, compileTranscript, Conversation.splitLast?, Conversation.splitLast?,
    Conversation.orContext]
  cases transcript.turns.getLast? with
  | none => rfl
  | some last =>
      obtain ⟨role, target⟩ := last
      cases role <;> rfl

/-- **Without a context, training is about the typical machine.** -/
theorem compileExample_typical (c : Compiler) (e : Training.Example) :
    c.compileExample { e with context := some (e.context.getD typicalFacts.context) } =
      c.compileExample e := by
  rw [compileExample, compileExample, Conversation.ofMessages_getD]
  cases Conversation.ofMessages e.context e.messages with
  | error fault => rfl
  | ok conversation =>
      cases e.expected with
      | some a => exact c.compileTarget_orContext conversation a.target
      | none => exact c.compileTranscript_orContext conversation

end Training.Compiler

/-- **Without a context, serving is about the machine itself.** -/
theorem Engine.respond_live {m : Type → Type} [Monad m] (e : Engine) (g : Generator m)
    (facts : Facts) (q : Query) :
    e.respond g facts { q with context := some (q.context.getD facts.context) } =
      e.respond g facts q := rfl

/-! ## what a generator is asked -/

/-- A generator with a record of the ids that it was asked to continue. -/
def Generator.recorded {m : Type → Type} [Monad m] (g : Generator m) :
    Generator (StateT (List (List UInt32)) m) where
  name := g.name
  generate ids s := do
    modify (· ++ [ids])
    g.generate ids s

namespace Engine

section

variable {m : Type → Type} [Monad m] [LawfulMonad m]

theorem respond_eq (e : Engine) (g : Generator m) {facts : Facts} {q : Query} {ids : List UInt32}
    (h : e.promptIds facts q = .ok ids) :
    e.respond g facts q = e.finish facts <$> g.generate ids (e.sampling q) := by
  simp [respond, h]

/-- The generator is asked once, and its record says what. -/
theorem run_respond_recorded_of_promptIds (e : Engine) (g : Generator m) {facts : Facts}
    {q : Query} {ids : List UInt32} (h : e.promptIds facts q = .ok ids)
    (record : List (List UInt32)) :
    (e.respond g.recorded facts q).run record =
      (fun o => (e.finish facts o, record ++ [ids])) <$> g.generate ids (e.sampling q) := by
  rw [respond_eq e g.recorded h]
  simp [Generator.recorded]

end

/-! ## prompts of rows -/

section

variable {e : Engine} {maxLength : Nat} {origin context : String} {messages : List Message}
  {a : Action} {row : Row}

/-- The prompt in a row is not cut off. -/
theorem exists_prompt_of_compileTarget {c : Compiler} {conversation : Conversation}
    {target : String} (h : c.compileTarget conversation target = .ok row) :
    ∃ prompt, c.prompter.prompt conversation = .ok prompt ∧
      c.encoder.encode prompt c.special = .ok (row.inputIds.take row.promptLength) := by
  obtain ⟨promptIds, fullIds, hids⟩ := Compiler.encodes_of_compileTarget h
  have hbegins := ((Compiler.compileTarget_eq_ok_iff_of_encodes hids).mp h).1.1
  have hrow := Compiler.represents_of_compileTarget hids h
  obtain ⟨prompt, _, hprompt, _, _, hp, _⟩ := hids
  exact ⟨prompt, hprompt, by rw [hrow.take_inputIds hbegins, hp]⟩

/-- **The engine makes the prompt of the row** from the messages and the context of the row. -/
theorem promptIds_of_compileExample
    (hrow : Compiler.compileExample ⟨e.prompter, e.encoder, maxLength, e.settings.special⟩
      ⟨origin, some context, messages, some a⟩ = .ok row)
    (hmessages : messages ≠ []) (facts : Facts) (maxTokens : Option Nat) :
    e.promptIds facts ⟨messages, maxTokens, some context⟩ =
      .ok (row.inputIds.take row.promptLength) := by
  rw [Compiler.compileExample] at hrow
  cases hconversation : Conversation.ofMessages (some context) messages with
  | error fault =>
      rw [hconversation] at hrow
      cases hrow
  | ok conversation =>
      rw [hconversation] at hrow
      obtain ⟨prompt, hprompt, hids⟩ := exists_prompt_of_compileTarget hrow
      have hsome : ¬ messages.isEmpty = true := by simpa using hmessages
      simp only [promptIds, Result.throw_bind, Result.check_eq_ok_iff, Result.bind_eq_ok_iff,
        Result.mapError_eq_ok_iff]
      exact ⟨hsome, conversation, hconversation, prompt, hprompt, hids⟩

/-- Contexts may be absent from what was trained and from what is asked, if what is taken for them
is the same. -/
theorem run_respond_recorded_of_absent {m : Type → Type} [Monad m] [LawfulMonad m]
    {trained asked : Option String} {facts : Facts}
    (hrow : Compiler.compileExample ⟨e.prompter, e.encoder, maxLength, e.settings.special⟩
      ⟨origin, trained, messages, some a⟩ = .ok row)
    (hmessages : messages ≠ [])
    (hsame : trained.getD typicalFacts.context = asked.getD facts.context)
    (g : Generator m) (maxTokens : Option Nat) (record : List (List UInt32)) :
    (e.respond g.recorded facts ⟨messages, maxTokens, asked⟩).run record =
      (fun o => (e.finish facts o, record ++ [row.inputIds.take row.promptLength])) <$>
        g.generate (row.inputIds.take row.promptLength)
          (e.sampling ⟨messages, maxTokens, asked⟩) := by
  rw [← Compiler.compileExample_typical] at hrow
  have hids := promptIds_of_compileExample hrow hmessages facts maxTokens
  rw [hsame] at hids
  rw [← e.respond_live]
  exact run_respond_recorded_of_promptIds e g hids record

/-- **A model is asked what it was trained on**: if messages and a context have a row, for whatever
action and length, then an engine with the same prompter and encoder asks the generator once, and
for the prompt of the row, whatever the machine and the limit are. -/
theorem run_respond_recorded {m : Type → Type} [Monad m] [LawfulMonad m]
    (hrow : Compiler.compileExample ⟨e.prompter, e.encoder, maxLength, e.settings.special⟩
      ⟨origin, some context, messages, some a⟩ = .ok row)
    (hmessages : messages ≠ []) (g : Generator m) (facts : Facts) (maxTokens : Option Nat)
    (record : List (List UInt32)) :
    (e.respond g.recorded facts ⟨messages, maxTokens, some context⟩).run record =
      (fun o => (e.finish facts o, record ++ [row.inputIds.take row.promptLength])) <$>
        g.generate (row.inputIds.take row.promptLength)
          (e.sampling ⟨messages, maxTokens, some context⟩) :=
  run_respond_recorded_of_promptIds e g (promptIds_of_compileExample hrow hmessages facts maxTokens)
    record

end

/-- What was trained as the reply to a greeting is asked for on any machine, and with any limit, by
the two ids of the greeting. -/
theorem run_respond_recorded_greeting :
    let e : Engine := { prompter := ⟨Compiler.plainTemplate, []⟩, encoder := Compiler.closedBytes }
    ∃ row,
      Compiler.compileExample ⟨e.prompter, e.encoder, 8, e.settings.special⟩
        ⟨"greetings", some "Disks: sda", [⟨"user", "hi"⟩], some ⟨.text, "yes", none⟩⟩ = .ok row ∧
      row.inputIds.take row.promptLength = [106, 107] ∧
      ∀ (facts : Facts) (maxTokens : Option Nat),
        Id.run ((e.respond (Generator.recorded ⟨"late", fun _ _ => pure .timedOut⟩) facts
          ⟨[⟨"user", "hi"⟩], maxTokens, some "Disks: sda"⟩).run []) =
            (e.finish facts .timedOut, [[106, 107]]) := by
  intro e
  have hrow : Compiler.compileExample ⟨e.prompter, e.encoder, 8, e.settings.special⟩
      ⟨"greetings", some "Disks: sda", [⟨"user", "hi"⟩], some ⟨.text, "yes", none⟩⟩ =
        .ok ⟨[106, 107, 123, 103, 117, 0, 0, 0], [1, 1, 1, 1, 1, 0, 0, 0],
          [-100, -100, 123, 103, 117, -100, -100, -100], 2⟩ := rfl
  refine ⟨_, hrow, rfl, fun facts maxTokens => ?_⟩
  rw [run_respond_recorded hrow (List.cons_ne_nil _ _)]
  rfl

end Engine

end InstallAssistant
