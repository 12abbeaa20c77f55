import InstallAssistant.Encoder.Basic
import InstallAssistant.Json.Reader
import InstallAssistant.Text.Blank
import InstallAssistant.Text.Lines

/-!
# InstallAssistant.Encoder.Words

Whole words as tokens, from a vocabulary file.  Added tokens are found in the
text first, the longest at each place; what is left between them is split at
blank characters, and each word has the id of the vocabulary or that of the
unknown word.  Decoding joins the known tokens with one space.
-/

namespace InstallAssistant.Encoder

/-- A vocabulary of words. -/
structure Vocabulary where
  words : List (String × UInt32)
  /-- The word that stands for all others. -/
  unknown : String
  /-- Tokens that are found anywhere in a text. -/
  added : List (String × UInt32)
  /-- Whether texts are split at blank characters. -/
  splits : Bool
deriving DecidableEq, Repr

namespace Vocabulary

/-! ## looking up -/

def wordId? (v : Vocabulary) (word : String) : Option UInt32 :=
  (v.words.find? fun (w, _) => w == word).map (·.2)

def id? (v : Vocabulary) (token : String) : Option UInt32 :=
  match v.added.find? fun (t, _) => t == token with
  | some (_, id) => some id
  | none => v.wordId? token

def token? (v : Vocabulary) (id : UInt32) : Option String :=
  ((v.added ++ v.words).find? fun (_, i) => i == id).map (·.1)

/-! ## encoding -/

/-- A part of a text: an added token, or what stands between two of them. -/
inductive Part
  | token (id : UInt32)
  | plain (text : List Char)
deriving DecidableEq, Repr

/-- The longest added token at the start of a text. -/
def addedAt? (v : Vocabulary) (s : List Char) : Option (String × UInt32) :=
  (v.added.filter fun (t, _) => !t.isEmpty && t.toList.isPrefixOf s).foldl
    (fun best next => match best with
      | some b => if b.1.length < next.1.length then some next else some b
      | none => some next) none

/-- The parts of a text; `skip` characters still belong to the last token, and `current` holds the
plain text before them in reverse. -/
def partsFrom (v : Vocabulary) (skip : Nat) (current : List Char) : List Char → List Part
  | [] => if current.isEmpty then [] else [.plain current.reverse]
  | c :: cs =>
    match skip with
    | skip + 1 => partsFrom v skip current cs
    | 0 =>
      match v.addedAt? (c :: cs) with
      | some (t, id) =>
        let before := if current.isEmpty then [] else [.plain current.reverse]
        before ++ .token id :: partsFrom v (t.length - 1) [] cs
      | none => partsFrom v 0 (c :: current) cs

/-- The runs of characters that are not blank; `current` holds the run in progress in reverse. -/
def runsFrom (current : List Char) : List Char → List (List Char)
  | [] => if current.isEmpty then [] else [current.reverse]
  | c :: cs =>
    if Text.isBlank c then
      (if current.isEmpty then [] else [current.reverse]) ++ runsFrom [] cs
    else runsFrom (c :: current) cs

def encodeWord (v : Vocabulary) (word : List Char) : Except Failure UInt32 :=
  match (v.wordId? (String.ofList word)).or (v.wordId? v.unknown) with
  | some id => .ok id
  | none => .error ⟨s!"tokenization failed: {Failure.tokenizer}", []⟩

def encodePart (v : Vocabulary) : Part → Except Failure (List UInt32)
  | .token id => .ok [id]
  | .plain text => (if v.splits then runsFrom [] text else [text]).mapM v.encodeWord

def encode (v : Vocabulary) (text : String) : Except Failure (List UInt32) :=
  ((v.partsFrom 0 [] text.toList).mapM v.encodePart).map List.flatten

def decode (v : Vocabulary) (ids : List UInt32) : String :=
  Text.join " " (ids.filterMap v.token?)

/-! ## the file -/

/-- The id of the next added token: the one that the vocabulary has for it, or the first that is
free. -/
def nextId (words added : List (String × UInt32)) (content : String) : UInt32 :=
  let size := UInt32.ofNat words.length
  match (added ++ words).find? fun (t, _) => t == content with
  | some (_, id) => id
  | none => added.foldl (fun next (_, id) => max next (id + 1)) size

/-- The text of an added token.  What is said about its surroundings must be there, and does not
matter here. -/
def addedReader : Json.Reader String :=
  .record ["id", "content", "single_word", "lstrip", "rstrip", "normalized", "special"] false
    fun fields => do
      let _ ← fields.required "id" (.natural UInt32.size)
      for name in ["single_word", "lstrip", "rstrip", "normalized", "special"] do
        let _ ← fields.required name .bool
      fields.required "content" .string

/-- The words of a model, and its unknown word. -/
def modelReader : Json.Reader (List (String × UInt32) × String) :=
  .record ["type", "vocab", "unk_token"] false fun fields => do
    let kind ← fields.required "type" .string
    let words ← fields.required "vocab" (.dictionary (.natural UInt32.size))
    let unknown ← fields.required "unk_token" .string
    if kind = "WordLevel" then
      return (words.reverse.map fun (w, id) => (w, UInt32.ofNat id), unknown)
    else none

def splitterReader : Json.Reader Unit :=
  .record ["type"] false fun fields => do
    let kind ← fields.required "type" .string
    if kind = "WhitespaceSplit" then some () else none

/-- Reads a stage that this kind of vocabulary does without. -/
def noStage : Json.Reader Unit
  | _, .null => some ()
  | _, _ => none

def reader : Json.Reader Vocabulary :=
  .record ["version", "truncation", "padding", "added_tokens", "normalizer", "pre_tokenizer",
    "post_processor", "decoder", "model"] true fun fields => do
      let version ← fields.withDefault "version" "1.0" .string
      let added ← fields.withDefault "added_tokens" [] (.list addedReader)
      let _ ← fields.withDefault "normalizer" () noStage
      let splitter ← fields.optional "pre_tokenizer" splitterReader
      let _ ← fields.withDefault "post_processor" () noStage
      let _ ← fields.withDefault "decoder" () noStage
      let (words, unknown) ← fields.required "model" modelReader
      if version = "1.0" then
        let added := added.filter fun t => !t.isEmpty
        let added := added.foldl (fun ts t => ts ++ [(t, nextId words ts t)]) []
        return ⟨words, unknown, added, splitter.isSome⟩
      else none

end Vocabulary

/-- The encoder of the vocabulary in a file, with one of its tokens for padding. -/
def ofVocabulary (path text padToken : String) : Except Failure Encoder :=
  match Vocabulary.reader.parse? text with
  | none => .error ⟨s!"failed to load tokenizer {path}: {Failure.tokenizer}", []⟩
  | some v =>
    match v.id? padToken with
    | none => .error ⟨s!"pad token `{padToken}` not in vocabulary", []⟩
    | some pad =>
      .ok ⟨"huggingface", pad, fun text _ => v.encode text, fun ids => .ok (v.decode ids), v.id?⟩

end InstallAssistant.Encoder
