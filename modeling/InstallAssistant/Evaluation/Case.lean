import InstallAssistant.Engine.Answer
import InstallAssistant.Text.Case

/-!
# InstallAssistant.Evaluation.Case

Cases of an evaluation: a query, and what a good answer to it is.  A case asks
either for a command that holds one of some patterns, in any case, or for an
answer in text.
-/

namespace InstallAssistant.Evaluation

structure Case where
  query : String
  /-- The patterns, or `none` for an answer in text. -/
  expect : Option (List String)
  category : String
deriving DecidableEq, Repr

/-- What came back. -/
structure Observed where
  command : Option String := none
  text : Option String := none
  error : Option String := none
deriving DecidableEq, Repr

/-- A case with what came back, and whether that was good. -/
structure Scored where
  case : Case
  observed : Observed
  correct : Bool
deriving DecidableEq, Repr

/-! ## scoring -/

def Observed.ofAnswer (a : Answer) : Observed :=
  if a.success then { command := a.command, text := a.response }
  else { error := a.error.or a.errorKind }

/-- Whether a command holds a pattern, in any case. -/
def matchesPattern (command pattern : String) : Bool :=
  Text.contains (Text.lower pattern.toList) (Text.lower command.toList)

def Case.isCorrect (c : Case) (o : Observed) : Bool :=
  match c.expect with
  | some patterns => o.command.any fun command => patterns.any (matchesPattern command)
  | none => o.command.isNone && o.text.any fun t => (Text.nonBlank? t).isSome

def Case.score (c : Case) (o : Observed) : Scored := ⟨c, o, c.isCorrect o⟩

/-! ## JSON -/

def patternsJson : Option (List String) → Json
  | some patterns => .strings patterns
  | none => .null

def Case.reader : Json.Reader Case :=
  .record ["query", "expect", "category"] false fun fields => do
    return {
      query := ← fields.required "query" .string
      expect := ← fields.optional "expect" (.list .string)
      category := ← fields.withDefault "category" "general" .string }

def Case.toJson (c : Case) : Json :=
  .object [("query", .string c.query), ("expect", patternsJson c.expect),
    ("category", .string c.category)]

def Observed.reader : Json.Reader Observed :=
  .record ["command", "text", "error"] false fun fields => do
    return {
      command := ← fields.nullable "command" .string
      text := ← fields.nullable "text" .string
      error := ← fields.nullable "error" .string }

def Observed.toJson (o : Observed) : Json :=
  .object [("command", .ofText? o.command), ("text", .ofText? o.text),
    ("error", .ofText? o.error)]

def Scored.reader : Json.Reader Scored :=
  .record ["query", "category", "expect", "observed", "correct"] false fun fields => do
    let query ← fields.required "query" .string
    let category ← fields.required "category" .string
    let expect ← fields.nullable "expect" (.list .string)
    let observed ← fields.required "observed" Observed.reader
    let correct ← fields.required "correct" .bool
    return ⟨⟨query, expect, category⟩, observed, correct⟩

def Scored.toJson (s : Scored) : Json :=
  .object [("query", .string s.case.query), ("category", .string s.case.category),
    ("expect", patternsJson s.case.expect), ("observed", s.observed.toJson),
    ("correct", .bool s.correct)]

end InstallAssistant.Evaluation
