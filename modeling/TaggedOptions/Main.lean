import TaggedOptions.Invocation.Program

/-! # The executable

The outer layer: it looks up what the program may ask of the file system, hands it over as a value
and prints the outcome.
-/

namespace TaggedOptions.Main

structure Findings where
  workingDirectory : Place := []
  realPlaces : List (Place × Place) := []
  texts : List (String × Except FileFault String) := []

/-- The findings as surroundings: what was not asked about is not there. -/
def Findings.surroundings (f : Findings) : Surroundings where
  workingDirectory := f.workingDirectory
  realPath? place := (f.realPlaces.find? (·.1 = place)).map (·.2)
  readText path :=
    match f.texts.find? (·.1 = path) with
    | some (_, answer) => answer
    | none => .error .missing

def lookUp (place : Place) : IO (Option Place) := do
  try
    let real ← IO.FS.realPath place.toText
    return some (Path.names real.toString)
  catch _ => return none

def explore (f : Findings) (path : String) : IO Findings := do
  let mut f := f
  let mut here : Resolution := .start
  for step in f.surroundings.route path do
    match step with
    | .down name =>
      if here.onDisk then
        match ← lookUp (here.place ++ [name]) with
        | some real => f := { f with realPlaces := (here.place ++ [name], real) :: f.realPlaces }
        | none => pure ()
    | _ => pure ()
    here := here.step f.surroundings.realPath? step
  return f

def readText (path : String) : IO (Except FileFault String) := do
  try
    let content ← IO.FS.readBinFile path
    match String.fromUTF8? content with
    | some text => return .ok text
    | none => return .error .notText
  catch e =>
    match e with
    | .inappropriateType .. => return .error .isDirectory
    | .resourceExhausted .. => return .error .tooManyLinks
    | _ => return .error .missing

/-- The ends of a text: everything that could be the value in an argument. -/
def endings (arg : String) : List String :=
  (List.range arg.length).map fun n => String.ofList (arg.toList.drop n)

def gather (args : List String) : IO Findings := do
  let workingDirectory := Path.names (← IO.FS.realPath ".").toString
  let mut f : Findings := { workingDirectory }
  match Invocation.read f.surroundings args with
  | .error _ => return f
  | .ok call =>
    for path in call.manifests do
      f := { f with texts := (path, ← readText path) :: f.texts }
    let defaults :=
      match call.registry f.surroundings with
      | .ok registry =>
        (registry.get call.tags).declarations.filterMap
          (·.directives.default.map DefaultValue.toText)
      | .error _ => []
    for path in defaults ++ call.argv.flatMap endings do
      f ← explore f path
    return f

end TaggedOptions.Main

def main (args : List String) : IO UInt32 := do
  let findings ← TaggedOptions.Main.gather args
  let outcome := TaggedOptions.Program.run findings.surroundings args
  IO.print outcome.stdout
  IO.eprint outcome.stderr
  return outcome.code.toUInt32
