import InstallAssistant.Encoder.Basic
import InstallAssistant.Text.Utf8

/-!
# InstallAssistant.Encoder.Bytes

One token for each byte of a text.  Ids 0 and 1 are reserved for padding and for
the beginning of a text; byte `b` has the id `b + 2`.
-/

namespace InstallAssistant.Encoder.Bytes

def padId : UInt32 := 0

def beginId : UInt32 := 1

def idOf (b : UInt8) : UInt32 := b.toUInt32 + 2

def encode (text : String) (special : Bool) : List UInt32 :=
  (if special then [beginId] else []) ++ (Text.Utf8.encode text).map idOf

/-- The bytes of ids, without the reserved ones; an id that no byte has is an error. -/
def bytes : List UInt32 → Except Failure (List UInt8)
  | [] => .ok []
  | id :: ids =>
    if id = padId ∨ id = beginId then bytes ids
    else if id < 258 then (bytes ids).map ((id - 2).toUInt8 :: ·)
    else .error ⟨s!"token id {id} out of byte range", []⟩

def decode (ids : List UInt32) : Except Failure String :=
  (bytes ids).map fun bs => String.ofList (Text.Utf8.decodeLossy bs)

/-- The id of a text of one byte. -/
def single? (text : String) : Option UInt32 :=
  match Text.Utf8.encode text with
  | [b] => some (idOf b)
  | _ => none

end Bytes

/-- The encoder of bytes. -/
def bytes : Encoder :=
  ⟨"bytes", Bytes.padId, fun text special => .ok (Bytes.encode text special), Bytes.decode,
    Bytes.single?⟩

end InstallAssistant.Encoder
