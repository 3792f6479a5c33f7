import TaggedOptions.Place.Resolve

/-! # Commands and their arguments

A command is what a parser is assembled into: a name and a list of arguments.  An argument is a
flag, an option with values, or a positional argument when it has neither a long nor a short name.
-/

namespace TaggedOptions

inductive ValueKind where
  | text
  | abspath
  | path
  deriving DecidableEq, Repr

inductive Reaction where
  | flag
  | one (kind : ValueKind)
  /-- An option or positional argument that collects values; a value is first split at the
  delimiter, where there is one. -/
  | many (kind : ValueKind) (delimiter : Option Char)
  | help
  | version
  deriving DecidableEq, Repr

namespace Reaction

def takesValue : Reaction → Bool
  | .one _ => true
  | .many _ _ => true
  | _ => false

/-- Whether one occurrence may take any number of words. -/
def isMany : Reaction → Bool
  | .many _ _ => true
  | _ => false

end Reaction

structure Argument where
  id : String
  long : Option String := none
  aliases : List String := []
  hiddenAliases : List String := []
  short : Option Char := none
  shortAliases : List Char := []
  hiddenShortAliases : List Char := []
  reaction : Reaction := .one .text
  required : Bool := false
  default : Option String := none
  help : Option String := none
  valueName : Option String := none
  /-- Whether the argument only takes words behind the separator `--`. -/
  trailing : Bool := false
  deriving DecidableEq, Repr

namespace Argument

def isPositional (a : Argument) : Bool := a.long.isNone && a.short.isNone

def longs (a : Argument) : List String := a.long.toList ++ a.aliases ++ a.hiddenAliases

def shorts (a : Argument) : List Char := a.short.toList ++ a.shortAliases ++ a.hiddenShortAliases

def valueLabel (a : Argument) : String := a.valueName.getD a.id

def flagText (a : Argument) : String :=
  match a.long, a.short with
  | some name, _ => "--" ++ name
  | none, some letter => String.ofList ['-', letter]
  | none, none => ""

/-- What errors call the argument. -/
def display (a : Argument) : String :=
  if a.isPositional then
    if a.required then "<" ++ a.valueLabel ++ ">" else "[" ++ a.valueLabel ++ "]"
  else if a.reaction.takesValue then a.flagText ++ " <" ++ a.valueLabel ++ ">"
  else a.flagText

end Argument

def helpFlag : Argument where
  id := "help"
  long := some "help"
  short := some 'h'
  reaction := .help
  help := some "Print help"

def versionFlag : Argument where
  id := "version"
  long := some "version"
  short := some 'V'
  reaction := .version
  help := some "Print version"

structure Command where
  name : String
  arguments : List Argument := []
  about : Option String := none
  version : Option String := none
  deriving DecidableEq, Repr

namespace Command

/-- The arguments together with the flags that come with every command. -/
def allArguments (c : Command) : List Argument :=
  c.arguments ++ [helpFlag] ++ (if c.version.isSome then [versionFlag] else [])

def positionals (c : Command) : List Argument := c.arguments.filter (·.isPositional)

def byLong? (c : Command) (name : String) : Option Argument :=
  c.allArguments.find? (name ∈ ·.longs)

def byShort? (c : Command) (letter : Char) : Option Argument :=
  c.allArguments.find? (letter ∈ ·.shorts)

end Command

end TaggedOptions
