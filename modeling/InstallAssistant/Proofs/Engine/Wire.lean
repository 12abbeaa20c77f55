import InstallAssistant.Evaluation.Run
import InstallAssistant.Proofs.Chat.Conversation
import InstallAssistant.Proofs.Engine.Query

/-!
# InstallAssistant.Proofs.Engine.Wire

Queries and answers as they travel.  A query is read as the client wrote it
(`Query.parseBytes?_toJson`), and an answer as the server built it, whichever of its
fields are there (`Answer.parseBytes?_toJson`).

* An answer made of what has passed the guard tells of it
  (`Answer.tells_ofVerified`).
* A client observes a command, a text or an error in an answer, and only one of them
  (`Evaluation.Observed.shows_ofVerified`, `Evaluation.Observed.shows_ofFailure`).
-/

namespace InstallAssistant

/-! ## queries -/

namespace Query

/-- A limit as it is written. -/
def limitJson : Option Nat → Json
  | some n => .nat n
  | none => .null

/-- The fields of a query, all of which are written. -/
def fields (q : Query) : List (String × Option Json) :=
  [("messages", some (.array (q.messages.map Chat.Message.toJson))),
    ("max_tokens", some (limitJson q.maxTokens)), ("system_context", some (.ofText? q.context))]

theorem toJson_eq (q : Query) : q.toJson = .object (Json.present q.fields) := rfl

theorem finite_toJson (q : Query) : q.toJson.finite = true := by
  obtain ⟨messages, maxTokens, context⟩ := q
  have hmessages := Json.allInItems_map messages fun m _ => m.finite_toJson
  cases maxTokens <;> cases context <;>
    simp [toJson, Json.allNumbers, Json.allInMembers, Json.ofText?, Json.nat,
      Json.Number.isFinite, hmessages]

theorem optional_limitJson {limit : Option Nat} (h : ∀ n ∈ limit, n < UInt64.size) (room : Nat) :
    Json.Reader.optional (.natural UInt64.size) room (.ofJson (limitJson limit)) = some limit := by
  cases limit with
  | none => rfl
  | some n =>
      exact congrArg (Option.map some) (Json.Reader.natural_ofJson (Nat.le_refl _) (h n rfl) room)

theorem reader_toJson {q : Query} (h : ∀ n ∈ q.maxTokens, n < UInt64.size) (room : Nat) :
    reader (room + 3) (.ofJson q.toJson) = some q := by
  have hnodup : (q.fields.map Prod.fst).Nodup := by
    have hnames : q.fields.map Prod.fst = ["messages", "max_tokens", "system_context"] := rfl
    rw [hnames]
    decide
  have hmessages := Chat.Message.list_reader_toJson q.messages room
  have hlimit := optional_limitJson h (room + 2)
  have hcontext := Json.Reader.optional_ofText? q.context (room + 2)
  rw [toJson_eq]
  refine (Json.Reader.record_present hnodup _ (room + 2)).trans ?_
  simp only [Option.bind_eq_bind, Option.bind_eq_some_iff]
  exact ⟨q.messages, hmessages, q.maxTokens, hlimit, q.context, hcontext, rfl⟩

/-- **A query is read as it was written**, if its limit has 64 bits. -/
theorem parseBytes?_toJson {q : Query} (h : ∀ n ∈ q.maxTokens, n < UInt64.size) :
    reader.parseBytes? (Text.Utf8.encode q.toJson.compact) = some q := by
  rw [Json.Reader.parseBytes?_compact reader q.finite_toJson]
  exact reader_toJson h _

end Query

/-! ## answers -/

namespace Answer

/-- The fields of an answer that are texts. -/
def texts (a : Answer) : List (String × Option String) :=
  [("type", a.kind.map Action.Kind.name), ("command", a.command), ("response", a.response),
    ("thinking", a.thinking), ("warning", a.warning), ("suggested_command", a.suggestedCommand),
    ("error", a.error), ("kind", a.errorKind)]

/-- The fields of an answer, of which only those that are there are written. -/
def fields (a : Answer) : List (String × Option Json) :=
  ("success", some (.bool a.success)) ::
    a.texts.map fun (name, text?) => (name, text?.map .string)

theorem toJson_eq (a : Answer) : a.toJson = .object (Json.present a.fields) := by
  simp only [toJson, fields, texts, List.map_cons, Json.present_cons_some, Json.present_cons_text,
    List.append_assoc]
  simp [Json.present]

theorem finite_toJson (a : Answer) : a.toJson.finite = true := by
  rw [toJson_eq]
  refine Json.allInMembers_present (List.forall_mem_cons.mpr ⟨?_, List.forall_mem_map.mpr ?_⟩)
  · intro v hv
    rw [← Option.some.inj hv]
    rfl
  · intro field _ v hv
    obtain ⟨s, _, rfl⟩ := Option.map_eq_some_iff.mp hv
    rfl

theorem optional_kind {f : Json.Reader.Fields} {kind? : Option Action.Kind}
    (h : f.slot "type" = .ofOption ((kind?.map Action.Kind.name).map .string)) :
    f.optional "type" Action.Kind.reader = some kind? := by
  rw [Json.Reader.Fields.optional, Json.Reader.Fields.withDefault, h]
  cases kind? with
  | none => rfl
  | some kind => cases kind <;> rfl

theorem reader_toJson (a : Answer) (room : Nat) : reader (room + 1) (.ofJson a.toJson) = some a := by
  have hnodup : (a.fields.map Prod.fst).Nodup := by
    have hnames : a.fields.map Prod.fst = ["success", "type", "command", "response", "thinking",
      "warning", "suggested_command", "error", "kind"] := rfl
    rw [hnames]
    decide
  rw [toJson_eq]
  refine (Json.Reader.record_present hnodup _ room).trans ?_
  have htext := @Json.Reader.Fields.optional_of_slot ⟨room, Json.Reader.slots a.fields⟩
  simp only [Option.bind_eq_bind, Option.bind_eq_some_iff]
  exact ⟨a.success, rfl, a.kind, optional_kind rfl, a.command, htext rfl, a.response, htext rfl,
    a.thinking, htext rfl, a.warning, htext rfl, a.suggestedCommand, htext rfl, a.error, htext rfl,
    a.errorKind, htext rfl, rfl⟩

/-- **An answer is read as it was built.** -/
theorem parseBytes?_toJson (a : Answer) :
    reader.parseBytes? (Text.Utf8.encode a.toJson.compact) = some a := by
  rw [Json.Reader.parseBytes?_compact reader a.finite_toJson]
  exact reader_toJson a _

/-! ## what an answer tells -/

/-- An answer that tells of an action that was asked for and has passed the guard: its content
stands in the field of its kind, with a warning exactly if it replaces a command. -/
structure Tells (a : Answer) (asked : Action) (v : Device.Verified) : Prop where
  success : a.success = true
  kind : a.kind = some v.action.kind
  command : ∀ c, a.command = some c ↔ v.action.kind = .command ∧ v.action.content = c
  response : ∀ t, a.response = some t ↔ v.action.kind = .text ∧ v.action.content = t
  warning : a.warning.isSome = true ↔ asked.kind = .command ∧ v.action.kind = .text
  suggestedCommand :
    a.suggestedCommand.isSome = true ↔ asked.kind = .command ∧ v.action.kind = .text
  error : a.error = none
  errorKind : a.errorKind = none

theorem tells_ofVerified (known : Device.Known) (asked : Action) :
    (ofVerified (Device.verify known asked)).Tells asked (Device.verify known asked) where
  success := rfl
  kind := rfl
  command := fun _ => Engine.command_ofVerified_iff
  response := fun _ => Engine.response_ofVerified_iff
  warning := by
    rw [ofVerified, Option.isSome_map]
    exact Device.isSome_downgrade_verify_iff
  suggestedCommand := by
    rw [ofVerified, Option.isSome_map]
    exact Device.isSome_downgrade_verify_iff
  error := rfl
  errorKind := rfl

end Answer

/-! ## what a client observes -/

namespace Evaluation.Observed

/-- What is observed of a query that came to an action that may go out, or to none: its content
under its kind, or else an error. -/
structure Shows (o : Observed) (action? : Option Action) : Prop where
  command : ∀ c, o.command = some c ↔ ∃ a ∈ action?, a.kind = .command ∧ a.content = c
  text : ∀ t, o.text = some t ↔ ∃ a ∈ action?, a.kind = .text ∧ a.content = t
  error : o.error.isSome = true ↔ action? = none
  one : [o.command, o.text, o.error].countP Option.isSome = 1

theorem shows_ofVerified (v : Device.Verified) :
    (ofAnswer (.ofVerified v)).Shows (some v.action) where
  command _ := Iff.trans Engine.command_ofVerified_iff (by simp)
  text _ := Iff.trans Engine.response_ofVerified_iff (by simp)
  error := ⟨nofun, nofun⟩
  one := by
    obtain ⟨⟨kind, content, thinking⟩, downgrade⟩ := v
    cases kind <;> rfl

theorem shows_ofFailure (kind message : String) :
    (ofAnswer (.ofFailure kind message)).Shows none where
  command _ := ⟨nofun, nofun⟩
  text _ := ⟨nofun, nofun⟩
  error := ⟨fun _ => rfl, fun _ => rfl⟩
  one := rfl

end Evaluation.Observed

end InstallAssistant
