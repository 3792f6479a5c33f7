import TaggedOptions.Command.Matches
import TaggedOptions.Command.Token

/-! # Reading an argument vector

Arguments are read from left to right.  An option without an attached value waits for the next
word; a value that has been taken is checked and stored when the next argument begins, or at the
end.  Until then a flag that nobody knows is reported first.  Afterwards the defaults are stored,
and last the required arguments are looked for.
-/

namespace TaggedOptions

inductive ReadError where
  | unknownArgument (arg : String)
  | missingRequired (args : List String)
  /-- An option without a value, or with an empty one where that is not allowed. -/
  | noValue (arg : String)
  | invalidValue (arg value : String)
  | refusedValue (arg value : String)
  | repeated (arg : String)
  | unexpectedValue (arg value : String)
  deriving DecidableEq, Repr

/-- What can be asked for instead of a reading. -/
inductive Request where
  | help
  | version
  deriving DecidableEq, Repr

/-- Why a reading gives no matches. -/
inductive Interruption where
  | refused (error : ReadError)
  | requested (request : Request)
  deriving DecidableEq, Repr

/-- An occurrence of an argument that is not stored yet. -/
structure Pending where
  argument : Argument
  values : List String
  waiting : Bool
  deriving DecidableEq, Repr

structure Progress where
  found : Matches := []
  pending : Option Pending := none
  positionals : List Argument
  separated : Bool := false
  deriving DecidableEq, Repr

/-! ## Values -/

def ValueKind.read (s : Surroundings) (arg : String) (kind : ValueKind) (raw : String) :
    Except ReadError Value :=
  match kind with
  | .text => .ok (.text raw)
  | .abspath =>
    match s.absolute? raw with
    | some resolved => .ok (.path resolved)
    | none => .error (.refusedValue arg raw)
  | .path => if raw = "" then .error (.noValue arg) else .ok (.path raw)

def ValueKind.readAll (s : Surroundings) (arg : String) (kind : ValueKind) :
    List String → Except ReadError (List Value)
  | [] => .ok []
  | raw :: rest =>
    match kind.read s arg raw with
    | .error e => .error e
    | .ok value =>
      match kind.readAll s arg rest with
      | .error e => .error e
      | .ok values => .ok (value :: values)

def splitRaw (delimiter : Option Char) (raw : String) : List String :=
  match delimiter with
  | none => [raw]
  | some d => (raw.toList.splitOn d).map String.ofList

def store (s : Surroundings) (found : Matches) (a : Argument) (raws : List String) :
    Except Interruption Matches :=
  match a.reaction with
  | .flag =>
    if found.has a.id then .error (.refused (.repeated a.display))
    else .ok (found.append a.id [.flag true])
  | .one kind =>
    match raws with
    | [] => .error (.refused (.noValue a.display))
    | raw :: _ =>
      if found.has a.id then .error (.refused (.repeated a.display))
      else
        match kind.read s a.display raw with
        | .error e => .error (.refused e)
        | .ok value => .ok (found.append a.id [value])
  | .many kind delimiter =>
    match raws with
    | [] => .error (.refused (.noValue a.display))
    | _ :: _ =>
      match kind.readAll s a.display (raws.flatMap (splitRaw delimiter)) with
      | .error e => .error (.refused e)
      | .ok values => .ok (found.append a.id values)
  | .help => .error (.requested .help)
  | .version => .error (.requested .version)

namespace Progress

def settle (s : Surroundings) (p : Progress) : Except Interruption Progress :=
  match p.pending with
  | none => .ok p
  | some occurrence =>
    match store s p.found occurrence.argument occurrence.values with
    | .error e => .error e
    | .ok found => .ok { p with found, pending := none }

def occur (s : Surroundings) (p : Progress) (a : Argument) (raws : List String) :
    Except Interruption Progress :=
  match p.settle s with
  | .error e => .error e
  | .ok p =>
    match store s p.found a raws with
    | .error e => .error e
    | .ok found => .ok { p with found }

def await (s : Surroundings) (p : Progress) (a : Argument) : Except Interruption Progress :=
  match p.settle s with
  | .error e => .error e
  | .ok p => .ok { p with pending := some ⟨a, [], true⟩ }

def takeWord (s : Surroundings) (p : Progress) (word : String) : Except Interruption Progress :=
  match p.positionals with
  | [] => .error (.refused (.unknownArgument word))
  | a :: rest =>
    if a.trailing && !p.separated then .error (.refused (.unknownArgument word))
    else
      match a.reaction.isMany, p.pending with
      | true, some occurrence =>
        if occurrence.argument = a then
          .ok { p with pending := some { occurrence with values := occurrence.values ++ [word] } }
        else
          match p.settle s with
          | .error e => .error e
          | .ok p => .ok { p with pending := some ⟨a, [word], false⟩ }
      | true, none => .ok { p with pending := some ⟨a, [word], false⟩ }
      | false, _ =>
        match p.settle s with
        | .error e => .error e
        | .ok p => .ok { p with pending := some ⟨a, [word], false⟩, positionals := rest }

def readWord (s : Surroundings) (p : Progress) (word : String) : Except Interruption Progress :=
  match p.pending with
  | some occurrence =>
    if occurrence.waiting then
      .ok { p with pending := some { occurrence with values := [word], waiting := false } }
    else p.takeWord s word
  | none => p.takeWord s word

def readLong (s : Surroundings) (c : Command) (p : Progress) (name : String)
    (value : Option String) : Except Interruption Progress :=
  match c.byLong? name with
  | none => .error (.refused (.unknownArgument ("--" ++ name)))
  | some a =>
    match a.reaction.takesValue, value with
    | true, some value => p.occur s a [value]
    | true, none => p.await s a
    | false, some value => .error (.refused (.unexpectedValue a.display value))
    | false, none => p.occur s a []

/-- What is attached to a short option.  An equals sign in front does not count. -/
def attached : List Char → Option String
  | [] => none
  | '=' :: value => some (String.ofList value)
  | value => some (String.ofList value)

/-- A cluster of short flags.  An option takes the rest of the cluster as its value. -/
def readCluster (s : Surroundings) (c : Command) : Progress → List Char →
    Except Interruption Progress
  | p, [] => .ok p
  | p, letter :: rest =>
    match c.byShort? letter with
    | none => .error (.refused (.unknownArgument (String.ofList ['-', letter])))
    | some a =>
      if a.reaction.takesValue then
        match attached rest with
        | some value => p.occur s a [value]
        | none => p.await s a
      else
        match p.occur s a [] with
        | .error e => .error e
        | .ok p => readCluster s c p rest

def step (s : Surroundings) (c : Command) (p : Progress) (arg : String) :
    Except Interruption Progress :=
  if p.separated then p.takeWord s arg
  else
    match Token.ofString arg with
    | .separator => .ok { p with separated := true }
    | .long name value => p.readLong s c name value
    | .cluster first rest => p.readCluster s c (first :: rest)
    | .word => p.readWord s arg

def run (s : Surroundings) (c : Command) : Progress → List String → Except Interruption Progress
  | p, [] => .ok p
  | p, arg :: rest =>
    match p.step s c arg with
    | .error e => .error e
    | .ok p => run s c p rest

end Progress

/-! ## Defaults and required arguments -/

def defaultValues (s : Surroundings) (a : Argument) : Except ReadError (List Value) :=
  match a.reaction, a.default with
  | .flag, none => .ok [.flag false]
  | .flag, some text =>
    if text = "true" then .ok [.flag true]
    else if text = "false" then .ok [.flag false]
    else .error (.invalidValue a.display text)
  | .one kind, some text => kind.readAll s a.display [text]
  | .many kind delimiter, some text => kind.readAll s a.display (splitRaw delimiter text)
  | _, _ => .ok []

def fillDefaults (s : Surroundings) : List Argument → Matches → Except ReadError Matches
  | [], m => .ok m
  | a :: rest, m =>
    if m.has a.id then fillDefaults s rest m
    else
      match defaultValues s a with
      | .error e => .error e
      | .ok [] => fillDefaults s rest m
      | .ok values => fillDefaults s rest (m.append a.id values)

namespace Command

/-- The required arguments that are not given: flags and options first, then words. -/
def missing (c : Command) (given : Matches) : List Argument :=
  let absent := c.arguments.filter fun a => a.required && !given.has a.id
  absent.filter (!·.isPositional) ++ absent.filter (·.isPositional)

def read (c : Command) (s : Surroundings) (argv : List String) : Except Interruption Matches :=
  match Progress.run s c { positionals := c.positionals } argv with
  | .error e => .error e
  | .ok p =>
    match p.settle s with
    | .error e => .error e
    | .ok p =>
      match fillDefaults s c.arguments p.found with
      | .error e => .error (.refused e)
      | .ok m =>
        match c.missing p.found with
        | [] => .ok m
        | absent => .error (.refused (.missingRequired (absent.map (·.display))))

end Command

end TaggedOptions
