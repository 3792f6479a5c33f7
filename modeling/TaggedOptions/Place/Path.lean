/-! # Path texts

A path text is a list of names separated by slashes.  It is taken apart into steps: stay, go up,
go down.  A place is an absolute path of plain names, the form that resolved paths have.
-/

namespace TaggedOptions

/-- An absolute path without `.` and `..`, as the names from the root down. -/
abbrev Place := List String

namespace Place

def toText (p : Place) : String := "/" ++ "/".intercalate p

end Place

inductive Step where
  | stay
  | up
  | down (name : String)
  deriving DecidableEq, Repr

namespace Step

def ofName (name : String) : Step :=
  if name = "." then .stay else if name = ".." then .up else .down name

end Step

namespace Path

/-- The parts between the slashes of a text, empty ones included. -/
def segments (path : String) : List String := (path.toList.splitOn '/').map String.ofList

def names (path : String) : List String := (segments path).filter (· ≠ "")

def isAbsolute (path : String) : Bool := path.toList.head? == some '/'

/-- Whether the path ends with a slash, which asks for a directory. -/
def asksForDirectory (path : String) : Bool := path.toList.getLast? == some '/'

def steps (path : String) : List Step := (names path).map Step.ofName

/-- A path below a root.  An absolute path stays as it is; otherwise one slash stands between the
two, where the root does not bring its own. -/
def join (root path : String) : String :=
  if isAbsolute path then path
  else if root = "" || asksForDirectory root then root ++ path
  else root ++ "/" ++ path

/-- The last name of a path, if it is a plain one.  Dots and slashes behind it do not count. -/
def fileName? (path : String) : Option String :=
  match (steps path).filter (· ≠ .stay) |>.getLast? with
  | some (.down name) => some name
  | _ => none

def baseName (path : String) : String := (fileName? path).getD path

/-- What follows the last dot of the last name.  A name that only starts with a dot has none. -/
def extension? (path : String) : Option String :=
  match fileName? path with
  | none => none
  | some name =>
    let (after, before) := name.toList.reverse.span (· ≠ '.')
    if before.length ≤ 1 then none else some (String.ofList after.reverse)

end Path

end TaggedOptions
