import InstallAssistant.Text.Lines

/-!
# InstallAssistant.Failure

Failures of commands: what went wrong, and under it the chain of causes.  The
causes that come from outside, such as a file that cannot be read, have one fixed
text each.
-/

namespace InstallAssistant

/-- A failure with its causes, the outermost first. -/
structure Failure where
  summary : String
  causes : List String := []
deriving DecidableEq, Repr

namespace Failure

/-- The summary and all causes on one line. -/
def chain (f : Failure) : String := Text.join ": " (f.summary :: f.causes)

/-- The failure as a cause of something larger. -/
def within (f : Failure) (summary : String) : Failure := ⟨summary, f.summary :: f.causes⟩

end Failure

/-! ## causes from outside -/

/-- A text is not JSON of the form that is asked for. -/
def Failure.json : String := "<json>"

/-- A text is not YAML of the form that is asked for. -/
def Failure.yaml : String := "<yaml>"

/-- A file cannot be read or written. -/
def Failure.io : String := "<io>"

/-- A server cannot be reached, or its reply cannot be read. -/
def Failure.http : String := "<http>"

/-- A vocabulary file is unusable. -/
def Failure.tokenizer : String := "<tokenizer>"

end InstallAssistant
