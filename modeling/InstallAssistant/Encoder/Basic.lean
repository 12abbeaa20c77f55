import InstallAssistant.Failure

/-!
# InstallAssistant.Encoder.Basic

Encoders turn text into token ids and back.  Any pair of functions may be an
encoder; whoever compares two encodings has to ask for both with the same choice
of special tokens.
-/

namespace InstallAssistant

structure Encoder where
  name : String
  /-- The id that fills a row up. -/
  pad : UInt32
  /-- The ids of a text, with special tokens around it if asked for. -/
  encode : (text : String) → (special : Bool) → Except Failure (List UInt32)
  decode : List UInt32 → Except Failure String
  /-- The id of a text that is one token. -/
  single? : String → Option UInt32

/-- The id of a text whose encoding, special tokens included, has just one. -/
def Encoder.soleId? (encode : String → Bool → Except Failure (List UInt32)) (text : String) :
    Option UInt32 :=
  match encode text true with
  | .ok [id] => some id
  | _ => none

end InstallAssistant
