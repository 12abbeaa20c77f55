import InstallAssistant.Text.Lines

/-!
# InstallAssistant.CommandLine.Flag

Flags among the words of a command line:

* `--name value` and `--name=value`, where a value on its own does not begin with
  a dash, unless it is one;
* `-n value`, `-nvalue` and `-n=value` for flags with a letter;
* `--name` and `-n` for flags without a value.

A flag is given once at most.  Words are read from left to right; the first one
that is wrong, or that asks for help or for the version, decides.
-/

namespace InstallAssistant.CommandLine

/-! ## flags -/

/-- Why there is nothing to run. -/
inductive Halt
  | help
  | version
  | misuse
deriving DecidableEq, Repr

/-- What a flag does. -/
inductive Effect
  /-- It has a value, which must pass a test. -/
  | value (accepts : String → Bool)
  | switch
  | halt (reason : Halt)

structure Flag where
  name : String
  otherName : Option String := none
  letter : Option Char := none
  effect : Effect

namespace Flag

def hasName (f : Flag) (name : String) : Bool := f.name == name || f.otherName == some name

def hasLetter (f : Flag) (letter : Char) : Bool := f.letter == some letter

end Flag

/-- The flags that were given, by name, with their values; one without a value has an empty one. -/
abbrev Given := List (String × String)

namespace Given

def has (g : Given) (name : String) : Bool := g.any fun (n, _) => n == name

def add (g : Given) (f : Flag) (value : String) : Except Halt Given :=
  if g.has f.name then .error .misuse else .ok (g ++ [(f.name, value)])

/-- Adds a flag with a value that it accepts. -/
def addValue (g : Given) (f : Flag) (accepts : String → Bool) (value : String) :
    Except Halt Given :=
  if accepts value then g.add f value else .error .misuse

end Given

/-! ## words -/

/-- A word of a command line. -/
inductive Word
  /-- Two dashes alone, after which no flags can follow. -/
  | stop
  | long (name : String) (value : Option String)
  | short (letter : Char) (rest : List Char)
  | plain
deriving DecidableEq, Repr

namespace Word

/-- The name and the value in what follows two dashes. -/
def ofLong (s : List Char) : Word :=
  match Text.cut? ['='] s with
  | some (name, value) => .long (String.ofList name) (some (String.ofList value))
  | none => .long (String.ofList s) none

def ofString (word : String) : Word :=
  match word.toList with
  | ['-', '-'] => .stop
  | '-' :: '-' :: rest => ofLong rest
  | '-' :: letter :: rest => .short letter rest
  | _ => .plain

end Word

/-- The value of a flag in what follows its letter. -/
def attached (rest : List Char) : String :=
  match rest with
  | '=' :: value => String.ofList value
  | value => String.ofList value

/-- The value of a flag as a word of its own, and the words after it. -/
def nextValue : List String → Except Halt (String × List String)
  | [] => .error .misuse
  | word :: rest =>
    match Word.ofString word with
    | .plain => .ok (word, rest)
    | _ => .error .misuse

/-! ## scanning -/

/-- Flags without a value that are written in one word, and one with a value at their end, which may
be the next word. -/
def scanLetters (flags : List Flag) (given : Given) (letter : Char) :
    (rest : List Char) → (words : List String) → Except Halt (Given × List String)
  | rest, words =>
    match flags.find? fun f => f.hasLetter letter with
    | none => .error .misuse
    | some f =>
      match f.effect with
      | .halt reason => .error reason
      | .value accepts =>
        match rest with
        | [] => do
          let (value, words) ← nextValue words
          return (← given.addValue f accepts value, words)
        | rest => do return (← given.addValue f accepts (attached rest), words)
      | .switch =>
        match rest with
        | [] => do return (← given.add f "", words)
        | next :: rest => do scanLetters flags (← given.add f "") next rest words
termination_by rest => rest.length

/-- A flag that is written with its name. -/
def scanName (flags : List Flag) (given : Given) (name : String) (value : Option String)
    (words : List String) : Except Halt (Given × List String) :=
  match flags.find? fun f => f.hasName name with
  | none => .error .misuse
  | some f =>
    match f.effect, value with
    | .value accepts, some value => do return (← given.addValue f accepts value, words)
    | .value accepts, none => do
      let (value, words) ← nextValue words
      return (← given.addValue f accepts value, words)
    | .halt reason, none => .error reason
    | .switch, none => do return (← given.add f "", words)
    | _, some _ => .error .misuse

/-- The flags at the beginning of some words, and the words from the first one on that is none.  A
round reads a word or two. -/
def scanFor (flags : List Flag) : (rounds : Nat) → Given → List String →
    Except Halt (Given × List String)
  | 0, given, words => .ok (given, words)
  | _, given, [] => .ok (given, [])
  | rounds + 1, given, word :: words =>
    match Word.ofString word with
    | .plain => .ok (given, word :: words)
    | .stop => if words.isEmpty then .ok (given, []) else .error .misuse
    | .long name value => do
      let (given, words) ← scanName flags given name value words
      scanFor flags rounds given words
    | .short letter rest => do
      let (given, words) ← scanLetters flags given letter rest words
      scanFor flags rounds given words

def scan (flags : List Flag) (words : List String) : Except Halt (Given × List String) :=
  scanFor flags words.length [] words

end InstallAssistant.CommandLine
