import TaggedOptions.Command.Argument
import TaggedOptions.Registry.Selection

/-! # Assembling a command

Declarations are turned into arguments one after the other.  A declaration that is malformed, or
that clashes with what the command already holds, is rejected: it leaves the command as it was, and
its fault is remembered.  The first fault is the answer of the whole assembly.
-/

namespace TaggedOptions

/-! ## Faults -/

inductive DirectiveFault where
  | requiredAfterOptional
  | requiredWithDefault
  deriving DecidableEq, Repr

namespace DirectiveFault

def reason : DirectiveFault → String
  | .requiredAfterOptional => "a required positional cannot follow an optional one"
  | .requiredWithDefault => "a required option cannot have a default"

end DirectiveFault

/-- Why a declaration is rejected.  `option` holds its spellings. -/
inductive BuildError where
  | invalidSpelling (option : List String) (spelling : String) (fault : SpellingFault)
  | unsupported (option : List String) (fault : DirectiveFault)
  | destinationTaken (dest : String)
  | longTaken (name : String)
  | shortTaken (letter : Char)
  deriving DecidableEq, Repr

namespace BuildError

def conflictText (kind name : String) : String :=
  "Conflicting " ++ kind ++ " " ++ Text.quoted name ++ ": it is already taken."

def message : BuildError → String
  | .invalidSpelling option spelling fault =>
    "Invalid flag spelling " ++ Text.quoted spelling ++ " for option " ++
      Text.quotedList option ++ ": " ++ fault.reason ++ "."
  | .unsupported option fault =>
    "Unsupported directives for option " ++ Text.quotedList option ++ ": " ++ fault.reason ++ "."
  | .destinationTaken dest => conflictText "destination" dest
  | .longTaken name => conflictText "long flag" ("--" ++ name)
  | .shortTaken letter => conflictText "short flag" (String.ofList ['-', letter])

end BuildError

/-! ## Names in use -/

/-- The names that new arguments must keep clear of. -/
structure Reserved where
  ids : List String
  longs : List String
  shorts : List Char
  optionalPositional : Bool
  deriving DecidableEq, Repr

namespace Reserved

def initial : Reserved := ⟨["help"], ["help"], ['h'], false⟩

def add (r : Reserved) (a : Argument) : Reserved where
  ids := r.ids ++ [a.id]
  longs := r.longs ++ a.longs
  shorts := r.shorts ++ a.shorts
  optionalPositional := r.optionalPositional || (a.isPositional && !a.required)

def ofCommand (c : Command) : Reserved := c.arguments.foldl add initial

def take (r : Reserved) (id : String) (read : List Spelling) (required : Bool) : Reserved where
  ids := r.ids ++ [id]
  longs := r.longs ++ read.filterMap Spelling.long?
  shorts := r.shorts ++ read.filterMap Spelling.short?
  optionalPositional := r.optionalPositional || (read.any Spelling.isWord && !required)

end Reserved

/-- The first member of a list that is in use, or that repeats an earlier member. -/
def firstTaken? {α : Type} [DecidableEq α] (used : List α) : List α → Option α
  | [] => none
  | x :: rest => if x ∈ used then some x else firstTaken? (used ++ [x]) rest

/-! ## From a declaration to an argument -/

def readSpellings (option : List String) : List String → Except BuildError (List Spelling)
  | [] => .ok []
  | s :: rest =>
    match Spelling.ofString s with
    | .error fault => .error (.invalidSpelling option s fault)
    | .ok spelling =>
      match readSpellings option rest with
      | .error e => .error e
      | .ok spellings => .ok (spelling :: spellings)

def Directives.reaction (d : Directives) : Reaction :=
  match d.action, d.valueType with
  | .storeTrue, _ => .flag
  | .store, .text => .one .text
  | .store, .abspath => .one .abspath

def argumentOf (spellings : List String) (read : List Spelling) (directives : Directives) :
    Argument :=
  let longs := read.filterMap Spelling.long?
  let shorts := read.filterMap Spelling.short?
  { id := destination spellings directives
    long := longs.head?
    aliases := longs.tail
    short := shorts.head?
    shortAliases := shorts.tail
    reaction := directives.reaction
    required := directives.required
    default := directives.default.map DefaultValue.toText
    help := directives.help }

/-- Reads the spellings of a declaration and makes sure that they go together: a bare word stands
alone, and its declaration takes a value. -/
def readDeclaration (spellings : List String) (directives : Directives) :
    Except BuildError (List Spelling) :=
  match spellings with
  | [] => .error (.invalidSpelling [] "" .missing)
  | first :: others =>
    match readSpellings spellings spellings with
    | .error e => .error e
    | .ok read =>
      if read.any Spelling.isWord then
        match others with
        | second :: _ => .error (.invalidSpelling spellings second .crowdedWord)
        | [] =>
          if directives.action = .storeTrue then
            .error (.invalidSpelling spellings first .valuelessWord)
          else .ok read
      else .ok read

namespace Reserved

def directiveFault? (r : Reserved) (read : List Spelling) (directives : Directives) :
    Option DirectiveFault :=
  if read.any Spelling.isWord && directives.required && r.optionalPositional then
    some .requiredAfterOptional
  else if directives.required && directives.default.isSome then some .requiredWithDefault
  else none

/-- The first clash of a declaration with the names in use: its id, else a long flag, else a short
flag. -/
def clash? (r : Reserved) (id : String) (read : List Spelling) : Option BuildError :=
  if id ∈ r.ids then some (.destinationTaken id)
  else
    match firstTaken? r.longs (read.filterMap Spelling.long?) with
    | some name => some (.longTaken name)
    | none => (firstTaken? r.shorts (read.filterMap Spelling.short?)).map .shortTaken

end Reserved

/-- Turns a declaration into an argument that keeps clear of the names in use, and takes its
names. -/
def buildArgument (reserved : Reserved) (spellings : List String) (directives : Directives) :
    Except BuildError (Argument × Reserved) :=
  match readDeclaration spellings directives with
  | .error e => .error e
  | .ok read =>
    match reserved.directiveFault? read directives with
    | some fault => .error (.unsupported spellings fault)
    | none =>
      let id := destination spellings directives
      match reserved.clash? id read with
      | some e => .error e
      | none =>
        .ok (argumentOf spellings read directives, reserved.take id read directives.required)

/-! ## Assemblies -/

structure Rejection where
  spellings : List String
  error : BuildError
  deriving DecidableEq, Repr

namespace Rejection

def warning (r : Rejection) : Log.Message :=
  ⟨.warn, "not adding " ++ Text.quotedList r.spellings ++ ": " ++ r.error.message⟩

end Rejection

structure Assembly where
  command : Command
  reserved : Reserved
  rejections : List Rejection := []
  deriving DecidableEq, Repr

namespace Assembly

def ofCommand (c : Command) : Assembly := ⟨c, .ofCommand c, []⟩

def new (name : String) : Assembly := ofCommand { name }

def add (a : Assembly) (spellings : List String) (directives : Directives) : Assembly :=
  match buildArgument a.reserved spellings directives with
  | .ok (argument, reserved) =>
    { a with
      command := { a.command with arguments := a.command.arguments ++ [argument] }
      reserved }
  | .error e => { a with rejections := a.rejections ++ [⟨spellings, e⟩] }

def addAll (a : Assembly) (ds : List Declaration) : Assembly :=
  ds.foldl (fun a d => a.add d.spellings d.directives) a

def errors (a : Assembly) : List BuildError := a.rejections.map (·.error)

def finish (a : Assembly) : Except BuildError Command :=
  match a.errors with
  | e :: _ => .error e
  | [] => .ok a.command

def warnings (a : Assembly) : List Log.Message := a.rejections.map Rejection.warning

end Assembly

namespace Selection

/-- The assembly of a selection: each selected entry is added once. -/
def assembly (s : Selection) (name : String) : Assembly :=
  (Assembly.new name).addAll (s.distinct.map (·.declaration))

def command (s : Selection) (name : String) : Except BuildError Command := (s.assembly name).finish

end Selection

end TaggedOptions
