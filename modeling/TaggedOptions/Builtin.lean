import TaggedOptions.Place.Path
import TaggedOptions.Registry.Basic

/-! # The generator's own options

The options that the code generator itself declares, for each stage the paths that it reads or
writes.  Defaults that are paths lie under the project root.
-/

namespace TaggedOptions.Builtin

def schemaTag : String := "schema"

def dbschemeTag : String := "dbscheme"

def qlTag : String := "ql"

def trapTag : String := "trap"

def pathOption (spelling root path help tag : String) : Declaration where
  spellings := [spelling]
  directives :=
    { valueType := .abspath, default := some (.path (Path.join root path)), help := some help }
  tags := .ofList [tag]

def declarations (root : String) : List Declaration :=
  [ { spellings := ["--verbose", "-v"]
      directives := { action := .storeTrue, help := some "Log what each stage is doing" } },
    pathOption "--schema" root "codegen/schema.yml" "Schema file to load" schemaTag,
    pathOption "--dbscheme" root "ql/lib/swift.dbscheme" "Output dbscheme file" dbschemeTag,
    pathOption "--ql-output" root "ql/lib/codeql/swift/generated"
      "Directory for generated QL classes" qlTag,
    pathOption "--ql-stub-output" root "ql/lib/codeql/swift/elements"
      "Directory for user-editable QL stubs" qlTag,
    { spellings := ["--codeql-binary"]
      directives :=
        { default := some (.text "codeql")
          help := some "CodeQL executable used to format generated QL" }
      tags := .ofList [qlTag] },
    { spellings := ["--trap-output"]
      directives :=
        { valueType := .abspath
          required := true
          help := some "Directory for generated trap code" }
      tags := .ofList [trapTag] } ]

def declare (r : Registry) (root : String) : Registry := r.registerAll (declarations root)

end TaggedOptions.Builtin
