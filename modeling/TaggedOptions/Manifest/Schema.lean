import TaggedOptions.Declaration.Basic
import TaggedOptions.Manifest.Document
import TaggedOptions.Place.Path

/-! # The schema of a manifest

A manifest declares options in a list of entries under the key `option`.  An entry is a table with
eight known keys, of which only `spellings` has to be there.  One bad entry spoils the manifest.
-/

namespace TaggedOptions

inductive EntryKey where
  | spellings | tags | action | type | default | required | dest | help
  deriving DecidableEq, Repr

namespace EntryKey

/-- The keys in the order in which a list without keys gives their values. -/
def all : List EntryKey := [.spellings, .tags, .action, .type, .default, .required, .dest, .help]

def word : EntryKey → String
  | .spellings => "spellings"
  | .tags => "tags"
  | .action => "action"
  | .type => "type"
  | .default => "default"
  | .required => "required"
  | .dest => "dest"
  | .help => "help"

def ofWord? (word : String) : Option EntryKey := all.find? (·.word = word)

end EntryKey

inductive SchemaFault where
  | malformed
  | notTable
  | notEntries
  | illegibleKey
  | unknownKey (key : String)
  | repeatedKey (key : String)
  | missingKey (key : String)
  | wrongLength (length : Nat)
  | wrongType (key : String)
  deriving DecidableEq, Repr

namespace SchemaFault

def reason : SchemaFault → String
  | .malformed => "malformed text"
  | .notTable => "expected a table"
  | .notEntries => "expected a list of option tables"
  | .illegibleKey => "a key is not a text"
  | .unknownKey key => "unknown field `" ++ key ++ "`"
  | .repeatedKey key => "duplicate field `" ++ key ++ "`"
  | .missingKey key => "missing field `" ++ key ++ "`"
  | .wrongLength length => "a list of " ++ toString length ++ " values does not make an option"
  | .wrongType key => "invalid type for `" ++ key ++ "`"

end SchemaFault

structure ManifestEntry where
  spellings : List String
  tags : List String := []
  action : Action := .store
  valueType : ValueType := .text
  default : Option Loose := none
  required : Bool := false
  dest : Option String := none
  help : Option String := none
  deriving DecidableEq, Repr

namespace Document

def texts? (d : Document) : Option (List String) :=
  match d.items? with
  | none => none
  | some items => items.mapM text?

def optional? {α : Type} (read : Document → Option α) (d : Document) : Option (Option α) :=
  match d.presence with
  | .absent => some none
  | .illegible => none
  | .present => (read d).map some

def action? (d : Document) : Option Action :=
  match d.choice? with
  | some word => [Action.store, .storeTrue].find? (·.word = word)
  | none => none

def valueType? (d : Document) : Option ValueType :=
  match d.choice? with
  | some word => [ValueType.text, .abspath].find? (·.word = word)
  | none => none

end Document

namespace ManifestEntry

def set? (e : ManifestEntry) (d : Document) : EntryKey → Option ManifestEntry
  | .spellings => d.texts?.map ({ e with spellings := · })
  | .tags => d.texts?.map ({ e with tags := · })
  | .action => d.action?.map ({ e with action := · })
  | .type => d.valueType?.map ({ e with valueType := · })
  | .default => (d.optional? Document.loose?).map ({ e with default := · })
  | .required => d.flag?.map ({ e with required := · })
  | .dest => (d.optional? Document.text?).map ({ e with dest := · })
  | .help => (d.optional? Document.text?).map ({ e with help := · })

/-- Reads the fields of an entry, of which the keys in `seen` are read already. -/
def ofFields (e : ManifestEntry) (seen : List EntryKey) :
    List (Option String × Document) → Except SchemaFault ManifestEntry
  | [] => if .spellings ∈ seen then .ok e else .error (.missingKey "spellings")
  | (none, _) :: _ => .error .illegibleKey
  | (some word, value) :: rest =>
    match EntryKey.ofWord? word with
    | none => .error (.unknownKey word)
    | some key =>
      if key ∈ seen then .error (.repeatedKey word)
      else
        match e.set? value key with
        | none => .error (.wrongType word)
        | some e => ofFields e (key :: seen) rest

def ofDocument : Document → Except SchemaFault ManifestEntry
  | .table fields _ => ofFields { spellings := [] } [] fields
  | .list items keyless =>
    if keyless.admits EntryKey.all.length items.length then
      ofFields { spellings := [] } [] ((EntryKey.all.map (some ·.word)).zip items)
    else .error (.wrongLength items.length)
  | .scalar s => if s.hollow then .error (.missingKey "spellings") else .error .notEntries
  | _ => .error .notEntries

/-- The default that an entry declares: a text for a path lies under the project root. -/
def defaultValue (e : ManifestEntry) (root : String) : Option DefaultValue :=
  e.default.map fun
    | .flag b => .flag b
    | .text s =>
      match e.valueType with
      | .abspath => .path (Path.join root s)
      | .text => .text s

def declaration (e : ManifestEntry) (root : String) : Declaration where
  spellings := e.spellings
  directives :=
    { action := e.action
      valueType := e.valueType
      default := e.defaultValue root
      required := e.required
      dest := e.dest
      help := e.help }
  tags := .ofList e.tags

end ManifestEntry

structure Manifest where
  entries : List ManifestEntry := []
  deriving DecidableEq, Repr

namespace Manifest

def optionKey : String := "option"

def readEntries : List Document → Except SchemaFault (List ManifestEntry)
  | [] => .ok []
  | d :: rest =>
    match ManifestEntry.ofDocument d with
    | .error e => .error e
    | .ok entry =>
      match readEntries rest with
      | .error e => .error e
      | .ok entries => .ok (entry :: entries)

def ofOptions (d : Document) : Except SchemaFault Manifest :=
  match d.items? with
  | none => .error .notEntries
  | some items =>
    match readEntries items with
    | .error e => .error e
    | .ok entries => .ok ⟨entries⟩

/-- Reads the fields of a manifest.  Other keys than the known one are skipped. -/
def ofFields (found : Option Manifest) :
    List (Option String × Document) → Except SchemaFault Manifest
  | [] => .ok (found.getD {})
  | (none, _) :: _ => .error .illegibleKey
  | (some word, value) :: rest =>
    if word = optionKey then
      if found.isSome then .error (.repeatedKey word)
      else
        match ofOptions value with
        | .error e => .error e
        | .ok m => ofFields (some m) rest
    else ofFields found rest

def ofDocument : Document → Except SchemaFault Manifest
  | .table fields _ => ofFields none fields
  | .list [] .exact => .ok {}
  | .list [options] .exact => ofOptions options
  | .scalar s => if s.hollow then .ok {} else .error .notTable
  | _ => .error .notTable

def declarations (m : Manifest) (root : String) : List Declaration :=
  m.entries.map (·.declaration root)

end Manifest

end TaggedOptions
