import InstallAssistant.Proofs.Engine.Wire
import InstallAssistant.Server

/-!
# InstallAssistant.Proofs.Server

The query resource, from the bytes of a body to what a client observes in the
response.  Whatever a body, the machine and the generator come to is either an action
that has passed the guard or nothing (`Server.completed?`), and an answer is built of
it alone (`Server.answerBody_cases`).  The two ends agree on it: the client reads the
answer that the server built, sees by the status whether there was an action, and
observes that action or an error (`Server.handle_query`).
-/

namespace InstallAssistant

/-! ## statuses -/

/-- No failure has the status of success, whatever its kind. -/
theorem statusOf_ne (kind : String) : statusOf kind ≠ 200 := by
  unfold statusOf
  split <;> decide

namespace Answer

theorem status_ofVerified (v : Device.Verified) : (ofVerified v).status = 200 := rfl

theorem status_ofFailure_ne (kind message : String) : (ofFailure kind message).status ≠ 200 :=
  statusOf_ne kind

end Answer

/-- **A response carries its answer.** -/
theorem Answer.parseBytes?_jsonResponse (status : Nat) (a : Answer) :
    reader.parseBytes? (Server.jsonResponse status a.toJson).body = some a := by
  simp only [Server.jsonResponse, parseBytes?_toJson]

/-- A response that carries an answer is observed as the answer. -/
theorem Evaluation.Observed.ofResponse_jsonResponse (status : Nat) (a : Answer) :
    ofResponse (some (Server.jsonResponse status a.toJson)) = ofAnswer a := by
  rw [ofResponse]
  simp only [Answer.parseBytes?_jsonResponse]

namespace Server

variable {world : Type} (s : Server (StateM world)) (body : List UInt8) (w : world)

/-! ## what a body comes to -/

/-- What the engine completes for a body that comes in the world `w`: the action that has passed the
guard, with the text that it was decoded from.  There is nothing if the body is no query, and if
the engine fails at it. -/
def completed? : Option Engine.Completed := do
  let q ← queryOf? body
  ((s.engine.respond s.generator (s.facts.run w).1 q).run (s.facts.run w).2).1.toOption

variable {s body w}

theorem fst_run_answerBody {q : Query} (h : queryOf? body = some q) :
    ((s.answerBody body).run w).1 =
      .ofResult ((s.engine.respond s.generator (s.facts.run w).1 q).run (s.facts.run w).2).1 := by
  unfold answerBody
  rw [h]
  exact Engine.fst_run_query s.engine s.generator s.facts q w

/-- What is completed was decoded and has passed the guard, on the machine as it was then. -/
theorem exists_verify_of_completed {c : Engine.Completed} (h : s.completed? body w = some c) :
    ∃ asked, Reply.decode c.raw = .ok asked ∧
      c.verified = Device.verify (.ofFacts (s.facts.run w).1) asked := by
  obtain ⟨q, _, hrun⟩ := Option.bind_eq_some_iff.mp h
  cases Engine.run_respond_cases s.engine s.generator (s.facts.run w).1 q (s.facts.run w).2 with
  | inl hfault =>
      obtain ⟨fault, hfault⟩ := hfault
      rw [hfault] at hrun
      contradiction
  | inr houtcome =>
      obtain ⟨o, houtcome⟩ := houtcome
      rw [houtcome] at hrun
      cases hfinish : s.engine.finish (s.facts.run w).1 o with
      | error fault =>
          rw [hfinish] at hrun
          contradiction
      | ok completed =>
          rw [hfinish] at hrun
          obtain rfl := Option.some.inj hrun
          exact Engine.exists_verify_of_finish hfinish

/-- **An answer is built of what was completed**, or of a failure if nothing was. -/
theorem answerBody_cases (s : Server (StateM world)) (body : List UInt8) (w : world) :
    (∃ c, s.completed? body w = some c ∧
        ((s.answerBody body).run w).1 = .ofVerified c.verified) ∨
      s.completed? body w = none ∧
        ∃ kind message, ((s.answerBody body).run w).1 = .ofFailure kind message := by
  cases hquery : queryOf? body with
  | none =>
      right
      unfold completed? answerBody
      rw [hquery]
      exact ⟨rfl, _, _, rfl⟩
  | some q =>
      rw [fst_run_answerBody hquery]
      unfold completed?
      rw [hquery, Option.bind_eq_bind, Option.bind_some]
      cases ((s.engine.respond s.generator (s.facts.run w).1 q).run (s.facts.run w).2).1 with
      | ok c => exact .inl ⟨c, rfl, rfl⟩
      | error fault => exact .inr ⟨rfl, fault.kind, fault.message, rfl⟩

/-- What is sent is the answer. -/
theorem fst_run_handle (s : Server (StateM world)) (body : List UInt8) (w : world) :
    ((s.handle ⟨"POST", "/query", body⟩).run w).1 =
      jsonResponse ((s.answerBody body).run w).1.status ((s.answerBody body).run w).1.toJson := by
  have hresource : Resource.ofPath? (Resource.pathOf "/query") = some .query := by decide
  unfold handle
  simp only [hresource]
  rfl

/-! ## what a client is told -/

/-- **The server and its client agree on every outcome**, for any body and whatever the machine and
the generator do.  The client reads the very answer that the server built.  The status is 200
exactly if an action has passed the guard; then the answer tells of that action, and otherwise of an
error and its kind alone.  The client observes the action, or else an error. -/
theorem handle_query (s : Server (StateM world)) (body : List UInt8) (w : world) :
    let answer := ((s.answerBody body).run w).1
    let response := ((s.handle ⟨"POST", "/query", body⟩).run w).1
    let observed := Evaluation.Observed.ofResponse (some response)
    let completed? := s.completed? body w
    Answer.reader.parseBytes? response.body = some answer ∧
      (response.status = 200 ↔ answer.success = true) ∧
      (answer.success = true ↔ completed?.isSome = true) ∧
      (∀ c ∈ completed?, ∃ asked, Reply.decode c.raw = .ok asked ∧
        c.verified = Device.verify (.ofFacts (s.facts.run w).1) asked ∧
        answer.Tells asked c.verified) ∧
      (completed? = none → ∃ kind message,
        answer = { success := false, error := some message, errorKind := some kind }) ∧
      observed.Shows (completed?.map fun c => c.verified.action) := by
  simp only [fst_run_handle, Answer.parseBytes?_jsonResponse,
    Evaluation.Observed.ofResponse_jsonResponse]
  obtain ⟨c, hc, ha⟩ | ⟨hnone, kind, message, ha⟩ := s.answerBody_cases body w
  · obtain ⟨asked, hdecode, hverify⟩ := exists_verify_of_completed hc
    rw [ha, hc]
    refine ⟨trivial, iff_of_true (Answer.status_ofVerified c.verified) rfl, iff_of_true rfl rfl, ?_,
      nofun, Evaluation.Observed.shows_ofVerified c.verified⟩
    intro c' hc'
    obtain rfl := Option.some.inj hc'
    have htells := Answer.tells_ofVerified (.ofFacts (s.facts.run w).1) asked
    rw [← hverify] at htells
    exact ⟨asked, hdecode, hverify, htells⟩
  · rw [ha, hnone]
    have hstatus := Answer.status_ofFailure_ne kind message
    exact ⟨trivial, iff_of_false hstatus nofun, iff_of_false nofun nofun, nofun,
      fun _ => ⟨kind, message, rfl⟩, Evaluation.Observed.shows_ofFailure kind message⟩

/-- A server whose generator always writes one text. -/
def scripted (text : String) : Server (StateM Nat) where
  engine := Engine.promptless
  generator := Engine.scripted text
  facts := pure Chat.typicalFacts
  uptime := pure 0

theorem completed?_scripted {text : String} {a : Action} (hdecode : Reply.decode text = .ok a)
    {body : List UInt8} {q : Query} (hquery : queryOf? body = some q)
    (hids : Engine.promptless.promptIds Chat.typicalFacts q = .ok []) (n : Nat) :
    (scripted text).completed? body n =
      some ⟨text, Device.verify (.ofFacts Chat.typicalFacts) a⟩ := by
  have hfinish := Engine.finish_promptless hdecode Chat.typicalFacts
  have hrespond : ((Engine.promptless.respond (Engine.scripted text) Chat.typicalFacts q).run n).1 =
      .ok ⟨text, Device.verify (.ofFacts Chat.typicalFacts) a⟩ := by
    unfold Engine.respond
    rw [hids]
    exact hfinish
  unfold completed?
  rw [hquery, Option.bind_eq_bind, Option.bind_some]
  exact congrArg Except.toOption hrespond

/-- A case of an evaluation that is asked of a server whose generator goes for a drive that is not
there: the response is one of success, and what is observed is a text that names the drive. -/
theorem handle_query_of_missing_drive :
    let body := Text.Utf8.encode
      (Evaluation.Case.toQuery ⟨"Wipe the drive.", none, "general"⟩).toJson.compact
    ∃ text,
      let response := (((scripted text).handle ⟨"POST", "/query", body⟩).run 0).1
      response.status = 200 ∧
        (Evaluation.Observed.ofResponse (some response)).text =
          some (Device.Downgrade.answer ⟨["/dev/sdz"]⟩) := by
  intro body
  obtain ⟨text, hdecode⟩ : ∃ text,
      Reply.decode text = .ok ⟨.command, "wipefs -a /dev/sdz", none⟩ := by
    have ha : Action.make .command "wipefs -a /dev/sdz" none =
        .ok ⟨.command, "wipefs -a /dev/sdz", none⟩ := by decide
    have hd : Action.DelimiterFree ⟨.command, "wipefs -a /dev/sdz", none⟩ :=
      Action.delimiterFree_of_no_bracket (by decide) (by decide)
    exact ⟨_, Action.decode_target_append (e := "") (Action.trimmed_of_make ha).1 hd
      Action.silent_nil⟩
  have hquery : queryOf? body =
      some (Evaluation.Case.toQuery ⟨"Wipe the drive.", none, "general"⟩) :=
    Query.parseBytes?_toJson nofun
  have hcompleted := completed?_scripted hdecode hquery rfl 0
  have hverify : Device.verify (.ofFacts Chat.typicalFacts)
      ⟨.command, "wipefs -a /dev/sdz", none⟩ =
        ⟨⟨.text, Device.Downgrade.answer ⟨["/dev/sdz"]⟩, none⟩, some ⟨["/dev/sdz"]⟩⟩ := by
    decide +kernel
  obtain ⟨_, hstatus, hsuccess, _, _, hshows⟩ := handle_query (scripted text) body 0
  refine ⟨text, ?_, ?_⟩
  · rw [hstatus, hsuccess, hcompleted]
    rfl
  · rw [hshows.text, hcompleted, hverify]
    exact ⟨_, rfl, rfl, rfl⟩

end Server

end InstallAssistant
