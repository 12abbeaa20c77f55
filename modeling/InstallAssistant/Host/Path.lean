import InstallAssistant.Text.Lines

/-!
# InstallAssistant.Host.Path

Paths as texts.  A path is kept as it was written, because it is shown again;
its parts are looked at only to find a file, its folder or its kind.
-/

namespace InstallAssistant.Host.Path

/-- The texts between the slashes of a path. -/
def fields (path : String) : List String := (Text.splitOn '/' path.toList).map String.ofList

def isAbsolute (path : String) : Bool := path.toList.head? == some '/'

/-- Whether a field leaves the place where it stands. -/
def isIdle (field : String) : Bool := field == "" || field == "."

/-- The path of `name` in a folder. -/
def join (folder name : String) : String :=
  if isAbsolute name || folder.isEmpty then name
  else if folder.toList.getLast? == some '/' then folder ++ name
  else folder ++ "/" ++ name

/-- The last field that goes anywhere, and the fields before it. -/
def splitLast? (path : String) : Option (List String × String) :=
  match (fields path).reverse.dropWhile isIdle with
  | last :: before => some (before.reverse, last)
  | [] => none

/-- The folder of what a path names; the empty path stands for the present folder. -/
def parent? (path : String) : Option String :=
  match splitLast? path with
  | some (before, _) => some (if before = [""] then "/" else Text.join "/" before)
  | none => if path.toList.head? == some '.' then some "" else none

/-- The name of the file that a path names. -/
def fileName? (path : String) : Option String :=
  match splitLast? path with
  | some (_, last) => if last = ".." then none else some last
  | none => none

/-- Whether the name of a file ends in a point and the given extension, with something before the
point. -/
def hasExtension (extension path : String) : Bool :=
  match fileName? path with
  | some name =>
    match Text.after? ('.' :: extension.toList).reverse name.toList.reverse with
    | some rest => !rest.isEmpty
    | none => false
  | none => false

end InstallAssistant.Host.Path
