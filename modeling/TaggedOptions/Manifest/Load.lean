import TaggedOptions.Manifest.Json.Reader
import TaggedOptions.Manifest.Toml.Reader
import TaggedOptions.Manifest.Yaml.Reader
import TaggedOptions.Manifest.Schema
import TaggedOptions.Place.Resolve
import TaggedOptions.Registry.Basic

/-! # Loading manifests

A manifest file is read in the format that its extension names.  Either all its entries are
declared, in their order, or none.
-/

namespace TaggedOptions

inductive ManifestFormat where
  | toml | yaml | json
  deriving DecidableEq, Repr

namespace ManifestFormat

def lowered (s : String) : String := String.ofList (s.toList.map Char.toLower)

def ofExtension? (extension : String) : Option ManifestFormat :=
  match lowered extension with
  | "toml" => some .toml
  | "yaml" => some .yaml
  | "yml" => some .yaml
  | "json" => some .json
  | _ => none

def ofPath? (path : String) : Option ManifestFormat := (Path.extension? path).bind ofExtension?

def read? : ManifestFormat → String → Option Document
  | .toml, text => Toml.read? text
  | .yaml, text => Yaml.read? text
  | .json, text => Json.read? text

end ManifestFormat

inductive ManifestError where
  | file (path : String) (fault : FileFault)
  | parse (path : String) (fault : SchemaFault)
  | unsupported (path : String)
  deriving DecidableEq, Repr

namespace ManifestError

def message : ManifestError → String
  | .file path fault =>
    "File error: failed to open file " ++ path ++ ": " ++ fault.message ++ "."
  | .parse path fault =>
    "Failed to parse manifest " ++ path ++ ": " ++ fault.reason ++ "."
  | .unsupported path =>
    "Unsupported manifest format: " ++ path ++ ". Expected toml, yaml or json."

end ManifestError

namespace Manifest

def ofText (format : ManifestFormat) (text : String) : Except SchemaFault Manifest :=
  match format.read? text with
  | none => .error .malformed
  | some document => ofDocument document

def ofFile (s : Surroundings) (path : String) : Except ManifestError Manifest :=
  match ManifestFormat.ofPath? path with
  | none => .error (.unsupported path)
  | some format =>
    match s.readText path with
    | .error fault => .error (.file path fault)
    | .ok text =>
      match ofText format text with
      | .error fault => .error (.parse path fault)
      | .ok manifest => .ok manifest

def messages (m : Manifest) (path root : String) : List Log.Message :=
  m.entries.flatMap (fun e =>
    [⟨.debug, "manifest " ++ path ++ ": declaring " ++ Text.quotedList e.spellings⟩,
      Registry.registered (e.declaration root)]) ++
    [⟨.info, "loaded " ++ toString m.entries.length ++ " option(s) from " ++ path⟩]

end Manifest

namespace Registry

/-- Declares the options of a manifest file, with path defaults under `root`.  Tells how many there
are, beside the registry that is left afterwards. -/
def load (r : Registry) (s : Surroundings) (path root : String) :
    Except ManifestError Nat × Registry :=
  match Manifest.ofFile s path with
  | .error e => (.error e, r)
  | .ok manifest => (.ok manifest.entries.length, r.registerAll (manifest.declarations root))

def loadManifest (r : Registry) (s : Surroundings) (path root : String) :
    Except ManifestError Registry :=
  match r.load s path root with
  | (.error e, _) => .error e
  | (.ok _, r) => .ok r

end Registry

end TaggedOptions
