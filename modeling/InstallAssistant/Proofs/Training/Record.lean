import InstallAssistant.Proofs.Action
import InstallAssistant.Proofs.Chat.Conversation
import InstallAssistant.Proofs.Except
import InstallAssistant.Proofs.Training.Compiler
import InstallAssistant.Training.Record

/-!
# InstallAssistant.Proofs.Training.Record

The two forms of a training record.  A record may tell the expected response, or
be a transcript that has the response as its last assistant message, with more
messages behind it that do not count.  The forms go different ways: one is
checked when it is read, the other is searched for its target, and its roles are
checked together with that of the target.  Both come to the same row, or to the
same fault (`compileExample_transcript`).
-/

namespace InstallAssistant.Training

open Chat

/-! ## records as they are written -/

namespace Record

/-- A record as it is written: a context that is not there is `null`, an expected response that is
not there is left out. -/
def toJson (r : Record) : Json :=
  .object (("system_context", .ofText? r.context) ::
    ("messages", .array (r.messages.map Message.toJson)) ::
    r.expected.toList.map fun e => ("expected_response", e.toJson))

theorem finite_toJson (r : Record) : r.toJson.finite = true := by
  obtain ⟨context, messages, expected⟩ := r
  have hmessages : Json.allInItems Json.Number.isFinite (messages.map Message.toJson) = true :=
    Json.allInItems_map messages fun m _ => m.finite_toJson
  cases context <;> cases expected <;>
    simp [toJson, Json.allNumbers, Json.allInMembers, Json.ofText?, hmessages,
      Action.Expected.finite_toJson]

theorem reader_toJson (r : Record) (room : Nat) :
    reader (room + 3) (.ofJson r.toJson) = some r := by
  obtain ⟨context, messages, expected⟩ := r
  have hmessages := Message.list_reader_toJson messages room
  rw [Json.Tree.ofJson] at hmessages
  have hcontext := Json.Reader.optional_ofText? context (room + 2)
  have hexpected : ∀ e : Action.Expected,
      Json.Reader.optional Action.Expected.reader (room + 2) (.ofJson e.toJson) = some (some e) :=
    fun e => congrArg (Option.map some) (e.reader_toJson (room + 1))
  cases expected <;>
    simp [toJson, reader, Json.Reader.record, Json.Tree.ofJson, Json.Tree.ofMembers,
      Json.Reader.memberSlots?, Json.Reader.Fields.optional, Json.Reader.Fields.required,
      Json.Reader.Fields.withDefault, Json.Reader.Fields.slot, hcontext, hmessages, hexpected]

/-- **Records are read back** from their lines. -/
theorem parse?_compact (r : Record) : reader.parse? r.toJson.compact = some r := by
  rw [Json.Reader.parse?, Json.Tree.parse?_compact r.finite_toJson, Option.bind_some]
  exact reader_toJson r _

end Record

/-! ## targets of transcripts -/

/-- What comes behind the last message of the assistant is dropped. -/
theorem throughLastReply?_append (reply : Message) (hreply : reply.role = "assistant")
    (messages : List Message) {extra : List Message} (hextra : ∀ m ∈ extra, m.role ≠ "assistant") :
    throughLastReply? (messages ++ reply :: extra) = some (messages ++ [reply]) := by
  have hskip : ∀ m ∈ extra.reverse, (m.role != "assistant") = true := by
    intro m hm
    simpa using hextra m (List.mem_reverse.mp hm)
  have hdrop : ((messages ++ reply :: extra).reverse.dropWhile fun m => m.role != "assistant") =
      reply :: messages.reverse := by
    rw [List.reverse_append, List.reverse_cons, List.append_assoc,
      List.dropWhile_append_of_pos hskip]
    simp [hreply]
  rw [throughLastReply?, hdrop]
  simp

/-- **A transcript compiles like its target**: the conversation up to a last reply has the row that
the reply has as the expected response. -/
theorem Compiler.compileExample_reply (c : Compiler) (context : Option String)
    (messages : List Message) (a : Action) (origin origin' : String) :
    c.compileExample ⟨origin', context, messages ++ [⟨"assistant", a.target⟩], none⟩ =
      c.compileExample ⟨origin, context, messages, some a⟩ := by
  rw [compileExample, compileExample, Conversation.ofMessages_append_reply]
  cases Conversation.ofMessages context messages with
  | error fault => rfl
  | ok conversation =>
      show c.compileTranscript (conversation.withTrailing ⟨.assistant, a.target⟩) =
        c.compile conversation a
      rw [compileTranscript, Conversation.splitLast?_withTrailing, compile]

/-! ## the two forms -/

section

variable {context : Option String} {messages extra : List Message} {a : Action} {origin : String}

theorem ofLine_of_expected (ha : a.Trimmed) {line : String}
    (h : Record.reader.parse? line = some ⟨context, messages, some a.toExpected⟩) :
    Example.ofLine line origin = .ok ⟨origin, context, messages, some a⟩ := by
  rw [Example.ofLine, h]
  simp only [Example.ofRecord, Action.ofExpected_toExpected ha]

theorem ofLine_of_transcript (hextra : ∀ m ∈ extra, m.role ≠ "assistant") {line target : String}
    (h : Record.reader.parse? line =
      some ⟨context, messages ++ ⟨"assistant", target⟩ :: extra, none⟩) :
    Example.ofLine line origin =
      .ok ⟨origin, context, messages ++ [⟨"assistant", target⟩], none⟩ := by
  have hlast := throughLastReply?_append ⟨"assistant", target⟩ rfl messages hextra
  rw [Example.ofLine, h]
  simp only [Example.ofRecord, hlast]

end

/-- **The two forms of a record are one**: the record that expects an action after some messages,
and the transcript that goes on with the target of the action and with messages of others, can both
be written, and whatever lines they are read from, both are accepted and come to the same row or to
the same fault, for any compiler. -/
theorem compileExample_transcript (c : Compiler) {kind : Action.Kind} {content : String}
    {thinking : Option String} {a : Action} (ha : Action.make kind content thinking = .ok a)
    (context : Option String) (messages extra : List Message)
    (hextra : ∀ m ∈ extra, m.role ≠ "assistant") (origin origin' : String) :
    let expecting : Record := ⟨context, messages, some a.toExpected⟩
    let transcript : Record := ⟨context, messages ++ ⟨"assistant", a.target⟩ :: extra, none⟩
    (Record.reader.parse? expecting.toJson.compact = some expecting ∧
      Record.reader.parse? transcript.toJson.compact = some transcript) ∧
    ∀ line line', Record.reader.parse? line = some expecting →
      Record.reader.parse? line' = some transcript →
      ∃ e e', Example.ofLine line origin = .ok e ∧ Example.ofLine line' origin' = .ok e' ∧
        c.compileExample e = c.compileExample e' := by
  intro expecting transcript
  refine ⟨⟨expecting.parse?_compact, transcript.parse?_compact⟩, ?_⟩
  intro line line' hline hline'
  have htrimmed := (Action.trimmed_of_make ha).1
  exact ⟨_, _, ofLine_of_expected htrimmed hline, ofLine_of_transcript hextra hline',
    (c.compileExample_reply context messages a origin origin').symm⟩

/-- A history in which the assistant has spoken before and a narrator has a line, and a transcript
of it with thanks behind the target. -/
theorem compileExample_thanked :
    let c : Compiler := ⟨⟨Compiler.plainTemplate, []⟩, Compiler.closedBytes, 64, false⟩
    let messages : List Message :=
      [⟨"user", "hi"⟩, ⟨"assistant", "Hello!"⟩, ⟨"narrator", "Silence."⟩]
    let expecting : Record := ⟨none, messages, some ⟨.command, some "lsblk", none, none⟩⟩
    let transcript : Record := ⟨none, messages ++ [⟨"assistant",
      Action.target ⟨.command, "lsblk", none⟩⟩, ⟨"user", "thanks"⟩], none⟩
    ∃ e e', Example.ofLine expecting.toJson.compact "a.jsonl:1" = .ok e ∧
      Example.ofLine transcript.toJson.compact "a.jsonl:2" = .ok e' ∧
      c.compileExample e = c.compileExample e' := by
  intro c messages expecting transcript
  have ha : Action.make .command " lsblk\n" none = .ok ⟨.command, "lsblk", none⟩ := by decide
  obtain ⟨⟨hexpecting, htranscript⟩, hforms⟩ := compileExample_transcript c ha none messages
    [⟨"user", "thanks"⟩] (by decide) "a.jsonl:1" "a.jsonl:2"
  exact hforms _ _ hexpecting htranscript

end InstallAssistant.Training
