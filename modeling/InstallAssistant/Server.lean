import InstallAssistant.Engine.Answer
import InstallAssistant.Host.Basic
import InstallAssistant.Program

/-!
# InstallAssistant.Server

The query server.  It has four resources:

* `POST /query` answers a query;
* `GET /api/status` tells that the server runs;
* `GET /api/health` tells its version, its uptime and its parts;
* `GET /api/facts` tells the facts of the machine at this moment.

Bodies are JSON.  A resource that is asked for in the wrong way, or that does not
exist, has an empty body, as has every answer to a browser that asks first.
-/

namespace InstallAssistant

/-! ## resources -/

inductive Resource
  | query
  | status
  | health
  | facts
deriving DecidableEq, Repr

namespace Resource

/-- The resource at a path, which must be written exactly so. -/
def ofPath? : String → Option Resource
  | "/query" => some .query
  | "/api/status" => some .status
  | "/api/health" => some .health
  | "/api/facts" => some .facts
  | _ => none

/-- The path of a target, without the query after it. -/
def pathOf (target : String) : String := String.ofList (target.toList.takeWhile (· != '?'))

/-- Whether a resource can be asked for with a method. -/
def accepts : Resource → (method : String) → Bool
  | .query, method => method == "POST"
  | _, method => method == "GET" || method == "HEAD"

end Resource

/-! ## statuses -/

/-- The status that goes with a kind of failure. -/
def statusOf (kind : String) : Nat :=
  match kind with
  | "invalid_request" | "empty_request" | "template_failure" => 400
  | "malformed_tool_call" | "empty_response" => 422
  | "backend" => 502
  | "timeout" => 504
  | _ => 500

def Answer.status (a : Answer) : Nat :=
  match a.errorKind with
  | some kind => if a.success then 200 else statusOf kind
  | none => 200

/-! ## the server -/

structure Server (m : Type → Type) where
  engine : Engine
  generator : Generator m
  /-- The facts at the moment when they are asked for. -/
  facts : m Facts
  /-- For how many seconds the server has been running. -/
  uptime : m Nat

namespace Server

variable {m : Type → Type} [Monad m]

def jsonResponse (status : Nat) (v : Json) : Host.Response := ⟨status, Text.Utf8.encode v.compact⟩

/-- The query in a body. -/
def queryOf? (body : List UInt8) : Option Query := Query.reader.parseBytes? body

def invalidQuery : Answer := .ofFailure "invalid_request" s!"invalid request: {Failure.json}"

def answerBody (s : Server m) (body : List UInt8) : m Answer := do
  match queryOf? body with
  | some q => s.engine.query s.generator s.facts q
  | none => return invalidQuery

def health (s : Server m) (seconds : Nat) : Json :=
  .object [("status", .string "ok"), ("version", .string Program.version),
    ("uptime_secs", .nat seconds), ("backend", .string s.generator.name),
    ("tokenizer", .string s.engine.encoder.name)]

def serve (s : Server m) (resource : Resource) (body : List UInt8) : m Host.Response := do
  match resource with
  | .query =>
    let a ← s.answerBody body
    return jsonResponse a.status a.toJson
  | .status => return jsonResponse 200 (.object [("status", .string "ok")])
  | .health => return jsonResponse 200 (s.health (← s.uptime))
  | .facts => return jsonResponse 200 (← s.facts).toJson

def handle (s : Server m) (c : Host.Call) : m Host.Response := do
  if c.method = "OPTIONS" then return ⟨200, []⟩
  else match Resource.ofPath? (Resource.pathOf c.target) with
    | none => return ⟨404, []⟩
    | some resource =>
      if !resource.accepts c.method then return ⟨405, []⟩
      else
        let response ← s.serve resource c.body
        return if c.method = "HEAD" then { response with body := [] } else response

end Server

end InstallAssistant
