import InstallAssistant.Evaluation.Summary
import InstallAssistant.Host.Basic

/-!
# InstallAssistant.Evaluation.Run

Runs of cases against a server.  A case that gets no answer counts as a failure
and does not end the run.
-/

namespace InstallAssistant.Evaluation

variable {m : Type → Type} [Monad m]

/-! ## cases -/

/-- The cases on some lines, each with its number; blank lines are none. -/
def casesOfLines (path : String) : List (List Char × Nat) → Except Failure (List Case)
  | [] => .ok []
  | (line, n) :: rest =>
    if Text.isBlankText line then casesOfLines path rest
    else match Case.reader.parse? (String.ofList line) with
      | some c => (casesOfLines path rest).map (c :: ·)
      | none => .error ⟨s!"{path}:{n + 1}: invalid eval case", [Failure.json]⟩

/-- The cases in the text of a file, which must be some. -/
def casesOfText (path text : String) : Except Failure (List Case) := do
  match ← casesOfLines path (Text.lines text.toList).zipIdx with
  | [] => throw ⟨s!"no eval cases in {path}", []⟩
  | cases => return cases

def loadCases (h : Host m) (path : String) : Task m (List Case) := do
  let text ← h.needText s!"reading eval cases {path}" path
  ExceptT.mk (pure (casesOfText path text))

/-! ## asking -/

/-- The query of a case; all cases are about the same machine. -/
def Case.toQuery (c : Case) : Query where
  messages := [⟨"user", c.query⟩]
  context := some Chat.evaluationFacts.context

/-- The address of the query resource of a server. -/
def endpoint (server : String) : String :=
  String.ofList (Text.dropEnd '/' server.toList) ++ "/query"

/-- What is observed when a server responds, or does not. -/
def Observed.ofResponse : Option Host.Response → Observed
  | none => { error := some s!"request failed: {Failure.http}" }
  | some response =>
    match Answer.reader.parseBytes? response.body with
    | some a => .ofAnswer a
    | none => { error := some s!"unreadable response: {Failure.http}" }

def ask (h : Host m) (server : String) (c : Case) : m Scored := do
  let response ← h.post ⟨endpoint server, c.toQuery.toJson.compact⟩
  return c.score (.ofResponse response)

def run (h : Host m) (server : String) (cases : List Case) : m (List Scored) :=
  cases.mapM (ask h server)

/-! ## reports -/

structure Report where
  server : String
  casesFile : String
  time : String
  results : List Scored

def Report.toJson (r : Report) : Json :=
  .object [("server", .string r.server), ("cases_file", .string r.casesFile),
    ("finished_at", .string r.time), ("summary", (Summary.ofResults r.results).toJson),
    ("results", .array (r.results.map Scored.toJson))]

/-- Writes a report, and makes the folder that it goes into. -/
def Report.save (h : Host m) (r : Report) (path : String) : Task m Unit := do
  match Host.Path.parent? path with
  | some folder =>
    unless ← h.makeFolders folder do
      throw ⟨Failure.io, []⟩
  | none => pure ()
  h.writeText s!"writing eval report {path}" path r.toJson.pretty

end InstallAssistant.Evaluation
