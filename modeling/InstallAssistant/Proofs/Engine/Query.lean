import InstallAssistant.Engine.Answer
import InstallAssistant.Proofs.Device.Guard
import InstallAssistant.Proofs.Encoder.Bytes
import InstallAssistant.Proofs.Except
import InstallAssistant.Proofs.Reply.Target

/-!
# InstallAssistant.Proofs.Engine.Query

What an answer depends on.  A query decides what the generator is asked, and
nothing else: behind the generator there are only its outcome and the facts of
the machine (`answer_eq`).
-/

namespace InstallAssistant.Engine

open Device (Known paths pseudoDevices)

/-! ## answers and commands -/

theorem command_ofVerified_iff {v : Device.Verified} {command : String} :
    (Answer.ofVerified v).command = some command ↔
      v.action.kind = .command ∧ v.action.content = command := by
  obtain ⟨⟨kind, content, thinking⟩, downgrade⟩ := v
  cases kind <;> simp [Answer.ofVerified]

theorem response_ofVerified_iff {v : Device.Verified} {text : String} :
    (Answer.ofVerified v).response = some text ↔
      v.action.kind = .text ∧ v.action.content = text := by
  obtain ⟨⟨kind, content, thinking⟩, downgrade⟩ := v
  cases kind <;> simp [Answer.ofVerified]

/-- What an outcome comes to was decoded, and has passed the guard. -/
theorem exists_verify_of_finish {e : Engine} {facts : Facts} {o : Outcome} {c : Completed}
    (h : e.finish facts o = .ok c) :
    ∃ a, Reply.decode c.raw = .ok a ∧ c.verified = Device.verify (.ofFacts facts) a := by
  cases o with
  | failed failure => cases h
  | timedOut => cases h
  | ids ids =>
      simp only [finish, Result.bind_eq_ok_iff, Result.mapError_eq_ok_iff,
        Result.pure_eq_ok_iff] at h
      obtain ⟨raw, _, a, hdecode, rfl⟩ := h
      exact ⟨a, hdecode, rfl⟩

/-- **A command goes out only with devices of the machine**, whatever was generated. -/
theorem allows_of_finish {e : Engine} {facts : Facts} {o : Outcome} {command : String}
    (h : (Answer.ofResult (e.finish facts o)).command = some command) :
    ∀ path ∈ paths command, (Known.ofFacts facts).allows path = true := by
  cases hresult : e.finish facts o with
  | error fault =>
      rw [hresult] at h
      cases h
  | ok completed =>
      obtain ⟨a, _, hverified⟩ := exists_verify_of_finish hresult
      rw [hresult, Answer.ofResult, hverified, command_ofVerified_iff] at h
      obtain ⟨hkind, rfl⟩ := h
      obtain ⟨hsame, hallowed⟩ := Device.verify_command hkind
      rw [hsame]
      exact hallowed

/-! ## runs -/

section

variable {m : Type → Type} [Monad m] [LawfulMonad m]

/-- **The answer is made of the outcome**, for a query that can be asked. -/
theorem answer_eq (e : Engine) (g : Generator m) {facts : Facts} {q : Query} {ids : List UInt32}
    (h : e.promptIds facts q = .ok ids) :
    e.answer g facts q =
      (fun o => Answer.ofResult (e.finish facts o)) <$> g.generate ids (e.sampling q) := by
  simp [answer, respond, h]

/-- A query that reaches the generator has messages. -/
theorem messages_of_promptIds {e : Engine} {facts : Facts} {q : Query} {ids : List UInt32}
    (h : e.promptIds facts q = .ok ids) : q.messages.isEmpty = false := by
  cases hm : q.messages.isEmpty with
  | false => rfl
  | true =>
      simp [promptIds, hm] at h

end

/-! ## runs in a world

A generator and a probe of the machine may do anything to the world that they run in, and depend on
it in any way: on the time, on chance, on earlier queries. -/

variable {world : Type}

theorem run_query {e : Engine} {g : Generator (StateM world)} {probe : StateM world Facts}
    {q : Query} {w v u : world} {facts : Facts} {ids : List UInt32} {o : Outcome}
    (hprobe : probe.run w = (facts, v)) (hids : e.promptIds facts q = .ok ids)
    (hgenerate : (g.generate ids (e.sampling q)).run v = (o, u)) :
    (e.query g probe q).run w = (Answer.ofResult (e.finish facts o), u) := by
  have hmessages := messages_of_promptIds hids
  rw [query, if_neg (by simp [hmessages]), StateT.run_bind, hprobe]
  show (e.answer g facts q).run v = _
  rw [answer_eq e g hids, StateT.run_map, hgenerate]
  rfl

/-- **An answer tells what a query came to**, with the facts that were asked for. -/
theorem fst_run_query (e : Engine) (g : Generator (StateM world)) (probe : StateM world Facts)
    (q : Query) (w : world) :
    ((e.query g probe q).run w).1 =
      .ofResult ((e.respond g (probe.run w).1 q).run (probe.run w).2).1 := by
  unfold query
  cases hmessages : q.messages.isEmpty with
  | true =>
      have hids : e.promptIds (probe.run w).1 q = .error .noMessages := by
        rw [promptIds, if_pos hmessages, Result.throw_bind]
        rfl
      rw [if_pos rfl, respond, hids]
      rfl
  | false =>
      rw [if_neg Bool.false_ne_true, StateT.run_bind]
      show ((e.answer g (probe.run w).1 q).run (probe.run w).2).1 = _
      rw [answer, StateT.run_map]
      rfl

/-- A query comes to a fault, or to what an outcome comes to. -/
theorem run_respond_cases (e : Engine) (g : Generator (StateM world)) (facts : Facts) (q : Query)
    (v : world) :
    (∃ fault, ((e.respond g facts q).run v).1 = .error fault) ∨
      ∃ o, ((e.respond g facts q).run v).1 = e.finish facts o := by
  unfold respond
  cases e.promptIds facts q with
  | error fault => exact .inl ⟨fault, rfl⟩
  | ok ids => exact .inr ⟨((g.generate ids (e.sampling q)).run v).1, rfl⟩

/-- An answer is a fault, or made of an outcome and the facts that were asked for. -/
theorem run_query_cases (e : Engine) (g : Generator (StateM world)) (probe : StateM world Facts)
    (q : Query) (w : world) :
    (∃ fault, ((e.query g probe q).run w).1 = .ofFault fault) ∨
      ∃ o, ((e.query g probe q).run w).1 = Answer.ofResult (e.finish (probe.run w).1 o) := by
  rw [fst_run_query]
  cases run_respond_cases e g (probe.run w).1 q (probe.run w).2 with
  | inl hfault =>
      obtain ⟨fault, hfault⟩ := hfault
      exact .inl ⟨fault, congrArg Answer.ofResult hfault⟩
  | inr houtcome =>
      obtain ⟨o, houtcome⟩ := houtcome
      exact .inr ⟨o, congrArg Answer.ofResult houtcome⟩

/-- **A client has no say in which devices are known.**  Two queries to one machine get the same
answer if the same ids are generated for them, whatever messages, context and limits they came
with; and a command in an answer names only devices that the machine had when the query was
answered, or that every machine has. -/
theorem query_independent_of_client (e : Engine) (g : Generator (StateM world))
    (probe : StateM world Facts) :
    (∀ (facts : Facts) (q₁ q₂ : Query) (ids₁ ids₂ out : List UInt32)
        (w₁ w₂ v₁ v₂ u₁ u₂ : world),
      probe.run w₁ = (facts, v₁) → probe.run w₂ = (facts, v₂) →
      e.promptIds facts q₁ = .ok ids₁ → e.promptIds facts q₂ = .ok ids₂ →
      (g.generate ids₁ (e.sampling q₁)).run v₁ = (.ids out, u₁) →
      (g.generate ids₂ (e.sampling q₂)).run v₂ = (.ids out, u₂) →
      ((e.query g probe q₁).run w₁).1 = ((e.query g probe q₂).run w₂).1) ∧
    ∀ (q : Query) (w : world) (command : String),
      ((e.query g probe q).run w).1.command = some command →
      ∀ path ∈ paths command,
        (Known.ofFacts (probe.run w).1).contains path = true ∨ path ∈ pseudoDevices := by
  constructor
  · intro facts q₁ q₂ ids₁ ids₂ out w₁ w₂ v₁ v₂ u₁ u₂ hprobe₁ hprobe₂ hids₁ hids₂ hgen₁ hgen₂
    rw [run_query hprobe₁ hids₁ hgen₁, run_query hprobe₂ hids₂ hgen₂]
  · intro q w command hcommand path hpath
    have hallowed : (Known.ofFacts (probe.run w).1).allows path = true := by
      rcases run_query_cases e g probe q w with ⟨fault, hrun⟩ | ⟨o, hrun⟩
      · rw [hrun] at hcommand
        cases hcommand
      · rw [hrun] at hcommand
        exact allows_of_finish hcommand path hpath
    exact (Device.Known.allows_iff.mp hallowed).symm

/-- A generator that always writes one text, and counts how often it is asked. -/
def scripted (text : String) : Generator (StateM Nat) where
  name := "scripted"
  generate _ _ := do
    modify (· + 1)
    return .ids (Encoder.Bytes.encode text false)

/-- An engine whose prompts are empty. -/
def promptless : Engine where
  prompter := ⟨⟨"blank", "", fun _ _ _ => .ok ""⟩, []⟩
  encoder := Encoder.bytes

theorem finish_promptless {text : String} {a : Action} (h : Reply.decode text = .ok a)
    (facts : Facts) :
    promptless.finish facts (.ids (Encoder.Bytes.encode text false)) =
      .ok ⟨text, Device.verify (.ofFacts facts) a⟩ := by
  have hread : promptless.encoder.decode (Encoder.Bytes.encode text false) = .ok text :=
    Encoder.Bytes.decode_encode text false
  simp only [finish, Result.bind_eq_ok_iff, Result.mapError_eq_ok_iff, Result.pure_eq_ok_iff]
  exact ⟨text, hread, a, h, rfl⟩

theorem run_scripted (text : String) (ids : List UInt32) (s : Sampling) (n : Nat) :
    ((scripted text).generate ids s).run n =
      (.ids (Encoder.Bytes.encode text false), n + 1) := rfl

/-- A client that makes up a drive gets the answer that any client gets, and the command in it names
a drive of the machine. -/
theorem query_of_made_up_drive :
    ∃ text,
      ((promptless.query (scripted text) (pure Chat.typicalFacts)
          ⟨[⟨"user", "Wipe the 1T drive."⟩], none, some "- /dev/sdb: 1T"⟩).run 0).1 =
        ((promptless.query (scripted text) (pure Chat.typicalFacts)
          ⟨[⟨"user", "Wipe the drive."⟩], some 64, none⟩).run 7).1 ∧
      ((promptless.query (scripted text) (pure Chat.typicalFacts)
          ⟨[⟨"user", "Wipe the drive."⟩], some 64, none⟩).run 7).1.command =
        some "wipefs /dev/sda" ∧
      ∀ path ∈ paths "wipefs /dev/sda",
        (Known.ofFacts Chat.typicalFacts).contains path = true ∨ path ∈ pseudoDevices := by
  obtain ⟨text, hdecode⟩ : ∃ text,
      Reply.decode text = .ok ⟨.command, "wipefs /dev/sda", none⟩ := by
    have ha : Action.make .command "wipefs /dev/sda" none =
        .ok ⟨.command, "wipefs /dev/sda", none⟩ := by decide
    have hd : Action.DelimiterFree ⟨.command, "wipefs /dev/sda", none⟩ :=
      Action.delimiterFree_of_no_bracket (by decide) (by decide)
    exact ⟨_, Action.decode_target_append (e := "") (Action.trimmed_of_make ha).1 hd
      Action.silent_nil⟩
  have hprobe : ∀ w : Nat,
      (pure Chat.typicalFacts : StateM Nat Facts).run w = (Chat.typicalFacts, w) := fun _ => rfl
  have hmade : promptless.promptIds Chat.typicalFacts
      ⟨[⟨"user", "Wipe the 1T drive."⟩], none, some "- /dev/sdb: 1T"⟩ = .ok [] := rfl
  have hother : promptless.promptIds Chat.typicalFacts
      ⟨[⟨"user", "Wipe the drive."⟩], some 64, none⟩ = .ok [] := rfl
  obtain ⟨hsame, hknown⟩ :=
    query_independent_of_client promptless (scripted text) (pure Chat.typicalFacts)
  have hverify : Device.verify (.ofFacts Chat.typicalFacts) ⟨.command, "wipefs /dev/sda", none⟩ =
      ⟨⟨.command, "wipefs /dev/sda", none⟩, none⟩ := by decide +kernel
  have hcommand : ((promptless.query (scripted text) (pure Chat.typicalFacts)
      ⟨[⟨"user", "Wipe the drive."⟩], some 64, none⟩).run 7).1.command =
        some "wipefs /dev/sda" := by
    rw [run_query (hprobe 7) hother (run_scripted text [] _ 7), finish_promptless hdecode, hverify]
    rfl
  refine ⟨text, ?_, hcommand, hknown _ 7 _ hcommand⟩
  exact hsame Chat.typicalFacts _ _ [] [] _ 0 7 0 7 1 8 (hprobe 0) (hprobe 7) hmade hother
    (run_scripted text [] _ 0) (run_scripted text [] _ 7)

end InstallAssistant.Engine
