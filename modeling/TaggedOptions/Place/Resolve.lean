import TaggedOptions.Place.FileTree

/-! # Absolute paths

A path value is resolved to a place.  As long as the path exists on disk its links are followed;
from the first name that does not exist on, the rest is taken literally.  A step up always drops
the last name reached so far, and does nothing at the root.
-/

namespace TaggedOptions

/-- What the library asks of the system it runs on. -/
structure Surroundings where
  workingDirectory : Place
  realPath? : Place → Option Place
  readText : String → Except FileFault String

def FileTree.surroundings (t : FileTree) (workingDirectory : Place) : Surroundings where
  workingDirectory := workingDirectory
  realPath? := t.realPath?
  readText := t.readText workingDirectory

structure Resolution where
  place : Place
  /-- Whether every name so far exists on disk. -/
  onDisk : Bool
  deriving DecidableEq, Repr

namespace Resolution

def start : Resolution := ⟨[], true⟩

def step (real? : Place → Option Place) (r : Resolution) : Step → Resolution
  | .stay => r
  | .up => { r with place := r.place.dropLast }
  | .down name =>
    if r.onDisk then
      match real? (r.place ++ [name]) with
      | some real => ⟨real, true⟩
      | none => ⟨r.place ++ [name], false⟩
    else ⟨r.place ++ [name], false⟩

def run (real? : Place → Option Place) (r : Resolution) (steps : List Step) : Resolution :=
  steps.foldl (step real?) r

end Resolution

namespace Surroundings

def route (s : Surroundings) (path : String) : List Step :=
  (if Path.isAbsolute path then [] else s.workingDirectory.map .down) ++ Path.steps path

def place (s : Surroundings) (path : String) : Place :=
  (Resolution.start.run s.realPath? (s.route path)).place

/-- The absolute path that a path text means.  Only the empty text means none. -/
def absolute? (s : Surroundings) (path : String) : Option String :=
  if path = "" then none else some (s.place path).toText

end Surroundings

end TaggedOptions
