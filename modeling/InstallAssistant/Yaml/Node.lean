import InstallAssistant.Yaml.Token

/-!
# InstallAssistant.Yaml.Node

YAML text as a tree of nodes.  An alias stands for the node of its anchor, which
must be complete; a tag is kept with the scalar that it is written before.  A text
holds one document at most, and a text without one is an empty scalar.

The functions here read one construct from the front of the tokens and give back
the tokens after it; `fuel` bounds how many constructs are read inside and behind
each other, and the number of tokens is always enough.
-/

namespace InstallAssistant.Yaml

inductive Node
  | scalar (tag : Option String) (style : Style) (text : String)
  | sequence (items : List Node)
  | mapping (entries : List (Node × Node))
deriving Inhabited

namespace Node

/-- The node of a value that is left out. -/
def empty : Node := .scalar none .plain ""

/-! ## what goes before a node -/

/-- The beginnings that tag handles stand for. -/
abbrev Handles := List (String × String)

def standardHandles : Handles := [("!", "!"), ("!!", "tag:yaml.org,2002:"), ("", "")]

/-- The full name of a tag; its handle must be known. -/
def tagName? (handles : Handles) (handle suffix : String) : Option String :=
  (handles.find? fun (h, _) => h == handle).map fun (_, start) => start ++ suffix

/-- The nodes of the anchors so far, the latest first; none for an anchor whose node is not
complete. -/
abbrev Anchors := List (String × Option Node)

/-- An anchor and a tag, in either order and each at most once, before the other tokens. -/
def properties : List Token →
    Option String × Option (String × String) × List Token
  | .anchor a :: .tag h s :: rest => (some a, some (h, s), rest)
  | .tag h s :: .anchor a :: rest => (some a, some (h, s), rest)
  | .anchor a :: rest => (some a, none, rest)
  | .tag h s :: rest => (none, some (h, s), rest)
  | rest => (none, none, rest)

/-! ## nodes -/

/-- A construct that has been read, the anchors after it and the tokens after it. -/
abbrev Read (α : Type) := α × Anchors × List Token

/-- Whether a token ends a value in a block mapping before it has begun. -/
def endsBlockValue : List Token → Bool
  | .key :: _ | .value :: _ | .endBlock :: _ => true
  | _ => false

def endsItem : List Token → Bool
  | .entry :: _ | .endBlock :: _ => true
  | _ => false

def endsFlowValue : List Token → Bool
  | .comma :: _ | .endFlowMapping :: _ => true
  | _ => false

mutual

/-- A node.  `inBlock` tells whether block collections may begin, and `dashes` whether the items
of a sequence may stand at the column of the mapping around it. -/
def node (handles : Handles) (inBlock dashes : Bool) :
    (fuel : Nat) → Anchors → List Token → Option (Read Node)
  | 0, _, _ => none
  | _ + 1, anchors, .alias name :: rest =>
    match anchors.find? fun (n, _) => n == name with
    | some (_, some v) => some (v, anchors, rest)
    | _ => none
  | fuel + 1, anchors, tokens => do
    let (anchor, tag, rest) := properties tokens
    let tag ← match tag with
      | none => some none
      | some (h, s) => (tagName? handles h s).map some
    let anchors := match anchor with
      | some a => (a, none) :: anchors
      | none => anchors
    let (v, anchors, rest) ←
      match rest with
      | .scalar style text :: rest => some (.scalar tag style text, anchors, rest)
      | .beginFlowSequence :: rest => do
        let (items, anchors, rest) ← flowItems handles true fuel anchors rest
        return (.sequence items, anchors, rest)
      | .beginFlowMapping :: rest => do
        let (entries, anchors, rest) ← flowEntries handles true fuel anchors rest
        return (.mapping entries, anchors, rest)
      | .beginSequence :: rest =>
        if inBlock then do
          let (items, anchors, rest) ← items handles fuel anchors rest
          return (.sequence items, anchors, rest)
        else none
      | .beginMapping :: rest =>
        if inBlock then do
          let (entries, anchors, rest) ← entries handles fuel anchors rest
          return (.mapping entries, anchors, rest)
        else none
      | rest =>
        if dashes && rest.head? == some .entry then do
          let (items, anchors, rest) ← dashItems handles fuel anchors rest
          return (.sequence items, anchors, rest)
        else if tag.isSome || anchor.isSome then some (.scalar tag .plain "", anchors, rest)
        else none
    return (v, (match anchor with
      | some a => (a, some v) :: anchors
      | none => anchors), rest)

/-- The items of a block sequence, up to its end. -/
def items (handles : Handles) : (fuel : Nat) → Anchors → List Token → Option (Read (List Node))
  | fuel + 1, anchors, .entry :: rest => do
    let (v, anchors, rest) ←
      if endsItem rest then some (empty, anchors, rest)
      else node handles true false fuel anchors rest
    let (vs, anchors, rest) ← items handles fuel anchors rest
    return (v :: vs, anchors, rest)
  | _, anchors, .endBlock :: rest => some ([], anchors, rest)
  | _, _, _ => none

/-- The items of a sequence that has no column of its own. -/
def dashItems (handles : Handles) :
    (fuel : Nat) → Anchors → List Token → Option (Read (List Node))
  | 0, _, _ => none
  | fuel + 1, anchors, .entry :: rest => do
    let (v, anchors, rest) ←
      if endsItem rest || endsBlockValue rest then some (empty, anchors, rest)
      else node handles true false fuel anchors rest
    let (vs, anchors, rest) ← dashItems handles fuel anchors rest
    return (v :: vs, anchors, rest)
  | _, anchors, rest => some ([], anchors, rest)

/-- The entries of a block mapping, up to its end. -/
def entries (handles : Handles) :
    (fuel : Nat) → Anchors → List Token → Option (Read (List (Node × Node)))
  | fuel + 1, anchors, .key :: rest => do
    let (k, anchors, rest) ←
      if endsBlockValue rest then some (empty, anchors, rest)
      else node handles true true fuel anchors rest
    let (v, anchors, rest) ←
      match rest with
      | .value :: rest =>
        if endsBlockValue rest then some (empty, anchors, rest)
        else node handles true true fuel anchors rest
      | rest => some (empty, anchors, rest)
    let (es, anchors, rest) ← entries handles fuel anchors rest
    return ((k, v) :: es, anchors, rest)
  | _, anchors, .endBlock :: rest => some ([], anchors, rest)
  | _, _, _ => none

/-- The items of a flow sequence, up to its end; commas stand between them, and one may stand after
the last. -/
def flowItems (handles : Handles) (first : Bool) :
    (fuel : Nat) → Anchors → List Token → Option (Read (List Node))
  | 0, _, _ => none
  | _ + 1, anchors, .endFlowSequence :: rest => some ([], anchors, rest)
  | fuel + 1, anchors, tokens => do
    let rest ← match first, tokens with
      | true, rest => some rest
      | false, .comma :: rest => some rest
      | false, _ => none
    match rest with
    | .endFlowSequence :: rest => return ([], anchors, rest)
    | rest => do
      let (v, anchors, rest) ←
        match rest with
        | .key :: rest => pair handles fuel anchors rest
        | rest => node handles false false fuel anchors rest
      let (vs, anchors, rest) ← flowItems handles false fuel anchors rest
      return (v :: vs, anchors, rest)

/-- A mapping of one entry that is an item of a flow sequence. -/
def pair (handles : Handles) : (fuel : Nat) → Anchors → List Token → Option (Read Node)
  | 0, _, _ => none
  | fuel + 1, anchors, tokens => do
    let (k, anchors, rest) ← node handles false false fuel anchors tokens
    match rest with
    | .value :: rest =>
      if rest.head? == some .comma || rest.head? == some .endFlowSequence then
        return (.mapping [(k, empty)], anchors, rest)
      else
        let (v, anchors, rest) ← node handles false false fuel anchors rest
        return (.mapping [(k, v)], anchors, rest)
    | rest => return (.mapping [(k, empty)], anchors, rest)

/-- The entries of a flow mapping, up to its end. -/
def flowEntries (handles : Handles) (first : Bool) :
    (fuel : Nat) → Anchors → List Token → Option (Read (List (Node × Node)))
  | 0, _, _ => none
  | _ + 1, anchors, .endFlowMapping :: rest => some ([], anchors, rest)
  | fuel + 1, anchors, tokens => do
    let rest ← match first, tokens with
      | true, rest => some rest
      | false, .comma :: rest => some rest
      | false, _ => none
    match rest with
    | .endFlowMapping :: rest => return ([], anchors, rest)
    | .key :: rest => do
      let (k, anchors, rest) ←
        if endsFlowValue rest || rest.head? == some .value then some (empty, anchors, rest)
        else node handles false false fuel anchors rest
      let (v, anchors, rest) ←
        match rest with
        | .value :: rest =>
          if endsFlowValue rest then some (empty, anchors, rest)
          else node handles false false fuel anchors rest
        | rest => some (empty, anchors, rest)
      let (es, anchors, rest) ← flowEntries handles false fuel anchors rest
      return ((k, v) :: es, anchors, rest)
    | rest => do
      let (k, anchors, rest) ← node handles false false fuel anchors rest
      let (es, anchors, rest) ← flowEntries handles false fuel anchors rest
      return ((k, empty) :: es, anchors, rest)

end

/-! ## documents -/

/-- The directives before a document: the tag handles they give, and the tokens after them.  There
may be one version, which must be 1.1 or 1.2, and each handle may be given once. -/
def directives? (versioned : Bool) (handles : Handles) : List Token →
    Option (Handles × List Token)
  | .version major minor :: rest =>
    if !versioned && major == 1 && (minor == 1 || minor == 2) then directives? true handles rest
    else none
  | .tagHandle handle start :: rest =>
    if handles.any fun (h, _) => h == handle then none
    else directives? versioned ((handle, start) :: handles) rest
  | rest => some (handles, rest)

/-- Whether a document has no content. -/
def endsDocument : List Token → Bool
  | [] | .documentStart :: _ | .documentEnd :: _ | .version .. :: _ | .tagHandle .. :: _ => true
  | _ => false

/-- The one node of the tokens. -/
def ofTokens? (tokens : List Token) : Option Node := do
  let fuel := 2 * tokens.length + 2
  let (handles, rest) ← directives? false [] tokens
  let handles := handles ++ standardHandles
  let hasDirectives := rest.length < tokens.length
  let (v, rest) ←
    match rest with
    | .documentStart :: rest =>
      if endsDocument rest then some (empty, rest)
      else (node handles true false fuel [] rest).map fun (v, _, rest) => (v, rest)
    | [] => if hasDirectives then none else some (empty, [])
    | rest =>
      if hasDirectives then none
      else (node handles true false fuel [] rest).map fun (v, _, rest) => (v, rest)
  if (rest.dropWhile (· == .documentEnd)).isEmpty then return v else none

/-- The one node of a text. -/
def ofText? (text : String) : Option Node := (Token.ofText? text).bind ofTokens?

end Node

end InstallAssistant.Yaml
