import TaggedOptions.Place.Path

/-! # File trees

A file tree says what stands at each place: a directory, a file or a symbolic link.  Following a
path through it means entering directories and replacing links by their targets, at most forty
times in one go.
-/

namespace TaggedOptions

inductive Node where
  | directory
  | file (content : ByteArray)
  | link (target : String)

inductive FileFault where
  | missing
  | notDirectory
  | tooManyLinks
  | nameTooLong
  | isDirectory
  | nullInName
  | notText
  deriving DecidableEq, Repr

namespace FileFault

def message : FileFault → String
  | .missing => "No such file or directory (os error 2)"
  | .notDirectory => "Not a directory (os error 20)"
  | .tooManyLinks => "Too many levels of symbolic links (os error 40)"
  | .nameTooLong => "File name too long (os error 36)"
  | .isDirectory => "Is a directory (os error 21)"
  | .nullInName => "file name contained an unexpected NUL byte"
  | .notText => "stream did not contain valid UTF-8"

end FileFault

structure FileTree where
  node? : Place → Option Node
  root_directory : node? [] = some .directory

namespace FileTree

def bare : FileTree where
  node? place := if place = [] then some .directory else none
  root_directory := by simp

def put (t : FileTree) (parent : Place) (name : String) (node : Node) : FileTree where
  node? place := if place = parent ++ [name] then some node else t.node? place
  root_directory := by simp [t.root_directory]

def isDirectory (t : FileTree) (place : Place) : Bool :=
  match t.node? place with
  | some .directory => true
  | _ => false

def maxName : Nat := 255

def maxPath : Nat := 4095

def maxLinks : Nat := 40

/-- Where a link with this target leads: the place to start from, and the steps from there. -/
def linkRoute (here : Place) (target : String) : Place × List Step :=
  (if Path.isAbsolute target then [] else here,
    Path.steps target ++ (if Path.asksForDirectory target then [.stay] else []))

/-- Takes steps from a place.  Each step needs a directory to start from.  At a link the rest of
the way is left to `jump`. -/
def walk (t : FileTree) (jump : Place → List Step → Except FileFault Place) :
    Place → List Step → Except FileFault Place
  | here, [] => .ok here
  | here, step :: rest =>
    if t.isDirectory here then
      match step with
      | .stay => walk t jump here rest
      | .up => walk t jump here.dropLast rest
      | .down name =>
        if maxName < name.utf8ByteSize then .error .nameTooLong
        else
          match t.node? (here ++ [name]) with
          | none => .error .missing
          | some (.link target) =>
            let (start, route) := linkRoute here target
            jump start (route ++ rest)
          | some _ => walk t jump (here ++ [name]) rest
    else .error .notDirectory

/-- Takes steps from a place through at most `links` links. -/
def follow (t : FileTree) : Nat → Place → List Step → Except FileFault Place
  | 0 => t.walk fun _ _ => .error .tooManyLinks
  | links + 1 => t.walk (t.follow links)

/-- The place that is meant by the entry at a path of plain names, all links resolved. -/
def realPath? (t : FileTree) (place : Place) : Option Place :=
  match t.follow maxLinks [] (place.map .down) with
  | .ok real => some real
  | .error _ => none

def readText (t : FileTree) (workingDirectory : Place) (path : String) : Except FileFault String :=
  if '\x00' ∈ path.toList then .error .nullInName
  else if path = "" then .error .missing
  else if maxPath < path.utf8ByteSize then .error .nameTooLong
  else
    let (start, route) := linkRoute workingDirectory path
    match t.follow maxLinks start route with
    | .error fault => .error fault
    | .ok place =>
      match t.node? place with
      | some (.file content) =>
        match String.fromUTF8? content with
        | some text => .ok text
        | none => .error .notText
      | some .directory => .error .isDirectory
      | _ => .error .missing

end FileTree

end TaggedOptions
