import TaggedOptions.Command.Reading
import TaggedOptions.Text.Blank
import TaggedOptions.Text.Columns
import TaggedOptions.Text.Quoted

/-! # Help texts

Help shows what the program is for, how it is called, and a line for each argument.  The
descriptions start in one column, unless some description would have too little room there: then
every description of that section stands on a line of its own.
-/

namespace TaggedOptions

def blanks (n : Nat) : String := String.ofList (List.replicate n ' ')

namespace Argument

def ellipsis (a : Argument) : String := if a.isPositional && a.reaction.isMany then "..." else ""

/-- How the list of arguments calls an argument. -/
def helpName (a : Argument) : String := a.display ++ a.ellipsis

/-- How the usage line calls an argument that has to be given. -/
def usageName (a : Argument) : String := { a with required := true : Argument }.helpName

/-- The names of a flag or option in its line, with room for a short name that is not there. -/
def helpFlags (a : Argument) : String :=
  if a.isPositional then a.helpName
  else
    let value := if a.reaction.takesValue then " <" ++ a.valueLabel ++ ">" else ""
    match a.short, a.long with
    | some letter, some name => String.ofList ['-', letter] ++ ", --" ++ name ++ value
    | some letter, none => String.ofList ['-', letter] ++ value
    | none, some name => blanks 4 ++ "--" ++ name ++ value
    | none, none => value

/-- The default as help shows it: quoted if there are blanks in it. -/
def defaultNote (a : Argument) : List String :=
  match a.reaction.takesValue, a.default with
  | true, some text =>
    let shown := if text.toList.any Text.isBlank then Text.quoted text else text
    ["[default: " ++ shown ++ "]"]
  | _, _ => []

def aliasNote (a : Argument) : List String :=
  match a.shortAliases.map (fun c => String.ofList ['-', c]) ++ a.aliases.map ("--" ++ ·) with
  | [] => []
  | names => ["[aliases: " ++ ", ".intercalate names ++ "]"]

def notes (a : Argument) : String := " ".intercalate (a.defaultNote ++ a.aliasNote)

def description (a : Argument) : String :=
  " ".intercalate ([a.help.getD "", a.notes].filter (· ≠ ""))

/-- The columns up to the end of an argument's names; those of flags count room for a short
name. -/
def nameColumns (a : Argument) : Nat :=
  Text.columns a.helpName + (if a.isPositional then 0 else 4)

/-- Whether an argument has a say in where the descriptions start. -/
def countsForAlignment (a : Argument) : Bool :=
  a.reaction.takesValue || a.long.isSome || a.short.isNone

end Argument

namespace Help

def lineWidth : Nat := 100

/-- Whether the descriptions of a section have too little room beside names of this width. -/
def crowded (longest : Nat) (members : List Argument) : Bool :=
  members.any fun a =>
    let taken := longest + 12
    let wanted := Text.columns (a.help.getD "") + Text.columns a.notes
    taken ≤ lineWidth && 40 < taken && lineWidth - taken < wanted

def indented (n : Nat) (s : String) : String :=
  ("\n" ++ blanks n).intercalate ((s.toList.splitOn '\n').map String.ofList)

def line (longest : Nat) (ownLine : Bool) (a : Argument) : String :=
  if ownLine then "  " ++ a.helpFlags ++ "\n" ++ blanks 10 ++ indented 10 a.description
  else
    let gap := longest + 2 - a.nameColumns + (if a.isPositional || a.long.isSome then 0 else 4)
    let column := longest + 4
    "  " ++ a.helpFlags ++ blanks gap ++ indented column a.description

def lines (members : List Argument) : String :=
  let longest := ((members.filter (·.countsForAlignment)).map (·.nameColumns)).foldl max 2
  "\n".intercalate (members.map (line longest (crowded longest members)))

def titled (title : String) (members : List Argument) : List String :=
  if members.isEmpty then [] else [title ++ ":\n" ++ lines members]

end Help

namespace Command

def usagePositional (a : Argument) : String :=
  if a.trailing && !a.required then "[-- " ++ a.usageName ++ "]" else a.helpName

def usage (c : Command) (calledAs : String) : String :=
  let named := c.arguments.filter (!·.isPositional)
  let options := if named.any (!·.required) then ["[OPTIONS]"] else []
  "Usage: " ++ " ".intercalate ([calledAs] ++ options ++
    (named.filter (·.required)).map (·.usageName) ++ c.positionals.map usagePositional)

def helpText (c : Command) (calledAs : String) : String :=
  "\n\n".intercalate (c.about.toList ++ [c.usage calledAs] ++
    Help.titled "Arguments" c.positionals ++
    Help.titled "Options" (c.allArguments.filter (!·.isPositional))) ++ "\n"

def reply (c : Command) (calledAs : String) : Request → String
  | .help => c.helpText calledAs
  | .version => c.name ++ " " ++ c.version.getD "" ++ "\n"

end Command

end TaggedOptions
