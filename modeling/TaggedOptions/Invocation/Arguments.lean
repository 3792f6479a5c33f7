import TaggedOptions.Command.Reading

/-! # The command line of the program

The program is itself called with a command line, which the same rules read: which tags to select,
which manifests to load, and how to show the result.  What stands behind the separator is left
alone, for the parser that the selection assembles.
-/

namespace TaggedOptions

structure Invocation where
  tags : List String
  manifests : List String
  root : String
  noBuiltin : Bool
  prog : String
  quiet : Bool
  argv : List String
  deriving DecidableEq, Repr

namespace Invocation

def tagArgument : Argument where
  id := "tags"
  long := some "tag"
  short := some 't'
  reaction := .many .text (some ',')
  help := some "Stage tag to select; repeat or comma-separate for several"
  valueName := some "TAG"

def manifestArgument : Argument where
  id := "manifest"
  long := some "manifest"
  short := some 'm'
  reaction := .many .path none
  help := some "Extra option manifest to declare (toml/yaml/json)"
  valueName := some "FILE"

def rootArgument : Argument where
  id := "root"
  long := some "root"
  reaction := .one .path
  default := some "."
  help := some "Project root that path defaults are resolved under"
  valueName := some "DIR"

def noBuiltinArgument : Argument where
  id := "no_builtin"
  long := some "no-builtin"
  reaction := .flag
  help := some "Do not declare the built-in code generator options"

def progArgument : Argument where
  id := "prog"
  long := some "prog"
  reaction := .one .text
  default := some "codegen"
  help := some "Program name used for the assembled parser"
  valueName := some "NAME"

def quietArgument : Argument where
  id := "quiet"
  long := some "quiet"
  short := some 'q'
  reaction := .flag
  help := some "Print only the table, without the summary line"

def argvArgument : Argument where
  id := "argv"
  reaction := .many .text none
  help := some "Arguments to parse with the assembled parser"
  valueName := some "ARGS"
  trailing := true

def command : Command where
  name := "genopts"
  arguments := [tagArgument, manifestArgument, rootArgument, noBuiltinArgument, progArgument,
    quietArgument, argvArgument]
  about := some "Inspect and try out the tagged options of a code generator"
  version := some "0.1.0"

def texts (m : Matches) (id : String) : List String :=
  ((m.get? id).getD []).filterMap fun value => value.text?.or value.path?

def given (m : Matches) (id : String) : Bool := (m.first? id).bind Value.flag? == some true

def ofMatches (m : Matches) : Invocation where
  tags := texts m tagArgument.id
  manifests := texts m manifestArgument.id
  root := (texts m rootArgument.id).headD ""
  noBuiltin := given m noBuiltinArgument.id
  prog := (texts m progArgument.id).headD ""
  quiet := given m quietArgument.id
  argv := texts m argvArgument.id

def read (s : Surroundings) (args : List String) : Except Interruption Invocation :=
  match command.read s args with
  | .error i => .error i
  | .ok m => .ok (ofMatches m)

end Invocation

end TaggedOptions
