import TaggedOptions.Builtin
import TaggedOptions.Command.Answers
import TaggedOptions.Command.Help
import TaggedOptions.Invocation.Arguments
import TaggedOptions.Manifest.Load
import TaggedOptions.Registry.Listing
import TaggedOptions.Text.Grid

/-! # Running a call

A call builds a registry from the generator's own options and from manifests.  Without arguments
for the assembled parser it lists the selected options; with arguments it reads them and shows the
answers.
-/

namespace TaggedOptions

inductive RunError where
  | manifest (error : ManifestError)
  | build (error : BuildError)
  | read (error : ReadError)
  /-- The assembled parser was asked for a text, and this is it. -/
  | shown (request : Request) (text : String)
  deriving DecidableEq, Repr

/-! ## What is shown -/

namespace Show

def tags : List String → String
  | [] => "(wildcard only)"
  | ts => ", ".intercalate ts

def summary (r : Registry) (requested : List String) (selected : Nat) : String :=
  "✓ " ++ toString selected ++ " of " ++ toString r.count ++ " declared options selected for " ++
    tags requested

def row (r : Row) : List String :=
  [r.spellings, r.tags, r.action, r.valueType, if r.default = "" then "-" else r.default,
    if r.required then "yes" else "", r.dest]

def listing (rows : List Row) : Text.Grid where
  heading := ["Flag", "Tags", "Action", "Type", "Default", "Required", "Dest"]
  rows := rows.map row

def answers (as : List Answer) : Text.Grid where
  heading := ["Dest", "Value"]
  rows := as.map fun a => [a.dest, a.value]

end Show

namespace Invocation

def loadAll (s : Surroundings) (root : String) (r : Registry) :
    List String → Except ManifestError Registry
  | [] => .ok r
  | path :: rest =>
    match r.loadManifest s path root with
    | .error e => .error e
    | .ok r => loadAll s root r rest

/-- The generator's own options, unless they are left out, and then the manifests in order. -/
def registry (i : Invocation) (s : Surroundings) : Except ManifestError Registry :=
  loadAll s i.root (if i.noBuiltin then .empty else Builtin.declare .empty i.root) i.manifests

def selection (i : Invocation) (s : Surroundings) : Except ManifestError Selection :=
  match i.registry s with
  | .error e => .error e
  | .ok r => .ok (r.get i.tags)

def run (i : Invocation) (s : Surroundings) : Except RunError String :=
  match i.selection s with
  | .error e => .error (.manifest e)
  | .ok selection =>
    if i.argv = [] then
      let rows := selection.rows
      let summary :=
        if i.quiet then "" else Show.summary selection.registry i.tags rows.length ++ "\n"
      .ok (summary ++ (Show.listing rows).render ++ "\n")
    else
      match selection.parse s i.prog i.argv with
      | .error (.build e) => .error (.build e)
      | .error (.read e) => .error (.read e)
      | .error (.shown request text) => .error (.shown request text)
      | .ok answers => .ok ((Show.answers answers).render ++ "\n")

end Invocation

end TaggedOptions
