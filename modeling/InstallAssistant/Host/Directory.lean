import InstallAssistant.Host.Path

/-!
# InstallAssistant.Host.Directory

A tree of files as a value.  Folders and files are entries under their full
paths, which are lists of names.  The root is always a folder, and nothing is
above it: `..` stays there.  The root is the present folder too, so that a path
leads to one place with a slash in front and without.  Each operation fails as a
whole or changes what it names.
-/

namespace InstallAssistant.Host

inductive Kind
  | file
  | folder
deriving DecidableEq, Repr

inductive Entry
  | file (bytes : List UInt8)
  | folder
deriving DecidableEq, Repr

structure Directory where
  entries : List (List String × Entry) := []
deriving DecidableEq, Repr

namespace Directory

/-! ## looking -/

def find? (d : Directory) (place : List String) : Option Entry :=
  if place.isEmpty then some .folder
  else (d.entries.find? fun (p, _) => p == place).map (·.2)

def isFolder (d : Directory) (place : List String) : Bool := d.find? place == some .folder

/-- Where a field leads from a place; from the root, `..` leads to the root. -/
def next (place : List String) (field : String) : List String :=
  if Path.isIdle field then place
  else if field = ".." then place.dropLast
  else place ++ [field]

/-- The place that fields lead to from another place.  Everything on the way must be a folder; what
is at the end need not exist. -/
def walk (d : Directory) (place : List String) : List String → Option (List String)
  | [] => some place
  | field :: rest => if d.isFolder place then walk d (next place field) rest else none

/-- The place that a path names; the empty path names none. -/
def place? (d : Directory) (path : String) : Option (List String) :=
  if path.isEmpty then none else d.walk [] (Path.fields path)

def entry? (d : Directory) (path : String) : Option Entry := (d.place? path).bind d.find?

def kind? (d : Directory) (path : String) : Option Kind :=
  (d.entry? path).map fun
    | .file _ => .file
    | .folder => .folder

def read? (d : Directory) (path : String) : Option (List UInt8) :=
  match d.entry? path with
  | some (.file bytes) => some bytes
  | _ => none

/-- The names in a folder. -/
def list? (d : Directory) (path : String) : Option (List String) :=
  match d.place? path with
  | some place =>
    if d.isFolder place then
      some <| d.entries.filterMap fun (p, _) =>
        match p.getLast? with
        | some name => if p.dropLast == place then some name else none
        | none => none
    else none
  | none => none

/-! ## changing -/

/-- Sets what is at a place. -/
def set (d : Directory) (place : List String) (e : Entry) : Directory :=
  if d.entries.any fun (p, _) => p == place then
    ⟨d.entries.map fun (p, old) => (p, if p == place then e else old)⟩
  else ⟨d.entries ++ [(place, e)]⟩

/-- Writes a file in a folder that exists. -/
def write? (d : Directory) (path : String) (bytes : List UInt8) : Option Directory :=
  match d.place? path with
  | some place => if d.isFolder place then none else some (d.set place (.file bytes))
  | none => none

/-- Makes the folders on the way from a place that is a folder. -/
def makeFrom (d : Directory) (place : List String) : List String → Option Directory
  | [] => some d
  | field :: rest =>
    let place := next place field
    match d.find? place with
    | some .folder => makeFrom d place rest
    | some (.file _) => none
    | none => makeFrom (d.set place .folder) place rest

/-- Makes a folder and all that it is in. -/
def make? (d : Directory) (path : String) : Option Directory := d.makeFrom [] (Path.fields path)

/-- A directory with one more file, whose folders are made. -/
def add (d : Directory) (path : String) (e : Entry) : Directory :=
  let d := ((Path.parent? path).bind d.make?).getD d
  match d.place? path with
  | some place => d.set place e
  | none => d

end Directory

end InstallAssistant.Host
