import InstallAssistant.Encoder.Bytes
import InstallAssistant.Encoder.Words
import InstallAssistant.Host.Basic

/-!
# InstallAssistant.Encoder.Load

Encoders by name: `bytes` is the encoder of bytes; any other name is the path of
a vocabulary file, or of a folder that holds one.
-/

namespace InstallAssistant.Encoder

variable {m : Type → Type} [Monad m]

/-- The path of the vocabulary file that a name leads to. -/
def filePath (h : Host m) (name : String) : m String := do
  match ← h.kind name with
  | some .folder => return Host.Path.join name "tokenizer.json"
  | _ => return name

/-- The encoder with a name.  The ranks of the byte-pair encoder `o200k` are not part of this
library, so that name is refused. -/
def load (h : Host m) (name padToken : String) : Task m Encoder := do
  if name = "bytes" then return bytes
  else if name = "o200k" then throw ⟨"failed to load o200k_base tokeniser", []⟩
  else
    let path ← (filePath h name : m String)
    unless ← h.exists? path do
      throw ⟨s!"tokenizer not found: {path}", []⟩
    match ← h.readText path with
    | none => throw ⟨s!"failed to load tokenizer {path}: {Failure.tokenizer}", []⟩
    | some text => ExceptT.mk (pure (ofVocabulary path text padToken))

end InstallAssistant.Encoder
