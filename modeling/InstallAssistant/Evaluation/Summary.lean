import InstallAssistant.Decimal.Style
import InstallAssistant.Evaluation.Case
import InstallAssistant.Text.Ordered

/-!
# InstallAssistant.Evaluation.Summary

What an evaluation comes to: counts, for all cases and by category, and the
shares that follow from them.
-/

namespace InstallAssistant.Evaluation

structure Score where
  total : Nat
  correct : Nat
deriving DecidableEq, Repr

def Score.ofResults (results : List Scored) : Score :=
  ⟨results.length, results.countP (·.correct)⟩

structure Summary where
  score : Score
  /-- The cases that ask for a command. -/
  command : Score
  /-- How many cases were answered with a command. -/
  commands : Nat
  /-- How many cases ask for text, and how many of these were answered in text alone. -/
  textCases : Nat
  texts : Nat
  /-- The scores by category, in increasing order of the names. -/
  categories : List (String × Score)
  /-- The results that were not correct, in order. -/
  failures : List Scored
deriving DecidableEq, Repr

namespace Summary

/-- The results in a category. -/
def inCategory (name : String) (results : List Scored) : List Scored :=
  results.filter fun r => r.case.category == name

def asksForCommand (r : Scored) : Bool := r.case.expect.isSome

/-- Whether an answer is text, good or not, and no command. -/
def isText (o : Observed) : Bool := o.command.isNone && o.text.isSome

def ofResults (results : List Scored) : Summary where
  score := .ofResults results
  command := .ofResults (results.filter asksForCommand)
  commands := results.countP fun r => r.observed.command.isSome
  textCases := results.countP fun r => !asksForCommand r
  texts := results.countP fun r => !asksForCommand r && isText r.observed
  categories := (Text.Ordered.ofList (results.map (·.case.category))).map fun name =>
    (name, .ofResults (inCategory name results))
  failures := results.filter fun r => !r.correct

/-! ## shares

A share is a quotient in any kind of number that has one.  Where it is written it is a float. -/

instance : NatCast Float := ⟨Float.ofNat⟩

section

variable {α : Type} [NatCast α] [Div α]

/-- The share of `part` in `whole`; of nothing it is none. -/
def share (part whole : Nat) : α := if whole = 0 then (0 : Nat) else (part : α) / (whole : α)

def accuracy (s : Summary) : α := share s.score.correct s.score.total

/-- The share of good commands in the cases that ask for one. -/
def commandAccuracy (s : Summary) : α := share s.command.correct s.command.total

/-- The share of commands in all cases. -/
def commandRate (s : Summary) : α := share s.commands s.score.total

/-- The share of answers in text in the cases that ask for one. -/
def textRate (s : Summary) : α := share s.texts s.textCases

end

/-! ## writing -/

def toJson (s : Summary) : Json :=
  .object [("total", .nat s.score.total), ("correct", .nat s.score.correct),
    ("accuracy", .ofFloat s.accuracy), ("command_accuracy", .ofFloat s.commandAccuracy),
    ("command_rate", .ofFloat s.commandRate), ("text_rate", .ofFloat s.textRate),
    ("per_category", .object (s.categories.map fun (name, c) =>
      (name, .object [("total", .nat c.total), ("correct", .nat c.correct)]))),
    ("failures", .array (s.failures.map Scored.toJson))]

/-- A share in percent. -/
def percent (x : Float) : String := Decimal.writeTenths (100 * x) ++ "%"

/-- A name, filled up with spaces. -/
def column (name : String) : String :=
  name ++ String.ofList (List.replicate (17 - name.length) ' ')

/-- The lines that are shown to the user. -/
def lines (s : Summary) : List String :=
  [s!"  total:            {s.score.total}",
    s!"  correct:          {s.score.correct} ({percent s.accuracy})",
    s!"  command accuracy: {percent s.commandAccuracy}",
    s!"  command rate:     {percent s.commandRate}",
    s!"  text rate:        {percent s.textRate}"] ++
  s.categories.map fun (name, c) => s!"  {column name} {c.correct}/{c.total}"

end Summary

end InstallAssistant.Evaluation
