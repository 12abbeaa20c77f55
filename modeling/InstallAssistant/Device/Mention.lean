import InstallAssistant.Text.Blank
import InstallAssistant.Text.Lines

/-!
# InstallAssistant.Device.Mention

The device paths that a shell command mentions.  A mention is `/dev/` and the
longest run of path characters after it; mentions do not overlap.  Redundant
separators (`//` and `/./`) count as one slash.

* Inside a longer path, as in `/mnt/dev/x`, `/dev/` is no mention.
* Points, colons and slashes at the end of a mention do not belong to it.
* Where quoting, expansion, escapes or globs go on after the run, what the shell
  will open is not known; such a mention reaches to the end of the shell word, and
  is no device that could exist.
-/

namespace InstallAssistant.Device

/-! ## characters -/

/-- What may stand in a device path. -/
def isPathChar (c : Char) : Bool :=
  c.isAlphanum || c == '_' || c == '+' || c == '-' || c == '.' || c == '/' || c == ':'

/-- What ends the name of a directory, so that `/dev/` after it is a part of a longer path. -/
def isNameChar (c : Char) : Bool := c.isAlphanum || c == '_'

def isQuote (c : Char) : Bool := c == '\x22' || c == '\x27'

/-- Shell syntax that leaves the final name open: quoting, expansion, escapes and globs. -/
def isExpansion (c : Char) : Bool :=
  isQuote c || c == '$' || c == '\x7b' || c == '\\' || c == '\x60' || c == '*' || c == '?' ||
    c == '['

def endsWord (c : Char) : Bool :=
  Text.isAsciiSpace c || c == ';' || c == '|' || c == '&' || c == '<' || c == '>' || c == '(' ||
    c == ')'

/-! ## separators -/

/-- A text in which each slash is followed neither by a slash nor by `./`; `afterSlash` tells
whether a slash came right before. -/
def collapseFrom (afterSlash : Bool) : List Char → List Char
  | [] => []
  | '/' :: rest => if afterSlash then collapseFrom true rest else '/' :: collapseFrom true rest
  | '.' :: '/' :: rest =>
    if afterSlash then collapseFrom true rest else '.' :: '/' :: collapseFrom true rest
  | c :: rest => c :: collapseFrom false rest

/-- A text in which redundant separators are gone. -/
def collapse (s : List Char) : List Char := collapseFrom false s

/-! ## mentions -/

/-- The directory of device nodes. -/
def root : List Char := ['/', 'd', 'e', 'v', '/']

/-- A place where a device path is written: the character before it, its run of path characters,
and what follows the run. -/
structure Mention where
  before : Option Char
  path : List Char
  after : List Char
deriving DecidableEq, Repr

/-- The mentions in a text; `before` is the character that precedes it. -/
def mentionsFrom (before : Option Char) : List Char → List Mention
  | [] => []
  | c :: cs =>
    match _h : Text.after? root (c :: cs) with
    | some rest =>
      let path := root ++ rest.takeWhile isPathChar
      ⟨before, path, rest.dropWhile isPathChar⟩ ::
        mentionsFrom path.getLast? (rest.dropWhile isPathChar)
    | none => mentionsFrom (some c) cs
termination_by s => s.length
decreasing_by
  all_goals simp_wf
  have hl := congrArg List.length (Text.after?_eq_some_iff.1 _h)
  have := (List.dropWhile_sublist isPathChar (l := rest)).length_le
  simp only [root, List.length_cons, List.length_append, List.length_nil] at hl
  omega

def isTrailing (c : Char) : Bool := c == '.' || c == ':' || c == '/'

namespace Mention

/-- The run of path characters without the punctuation at its end. -/
def trimmed (m : Mention) : List Char := (m.path.reverse.dropWhile isTrailing).reverse

/-- Whether the mention is a name in a pair of equal quotes. -/
def isQuoted (m : Mention) : Bool :=
  match m.before, m.after with
  | some b, q :: _ => isQuote q && b == q && decide (root.length < m.path.length)
  | _, _ => false

/-- What the mention says, whether or not it names anything. -/
def reading (m : Mention) : List Char :=
  match m.after with
  | q :: _ =>
    if isExpansion q && !m.isQuoted then m.path ++ m.after.takeWhile fun c => !endsWord c
    else m.trimmed
  | [] => m.trimmed

/-- The path that the mention names, if it stands at the start of a path and names something. -/
def path? (m : Mention) : Option (List Char) :=
  if m.before.any isNameChar || decide (m.reading.length ≤ root.length) then none
  else some m.reading

end Mention

/-- The device paths in a command, in the order of their first mention, each once. -/
def paths (command : String) : List String :=
  (((mentionsFrom none (collapse command.toList)).filterMap Mention.path?).map
    String.ofList).eraseDups

end InstallAssistant.Device
