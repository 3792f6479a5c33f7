import TaggedOptions.Command.Assembly
import TaggedOptions.Command.Help

/-! # Answers

The values of a selection, read back from matches: for each destination the value as text, in the
order of the selection.  A destination that the matches do not know, or that holds a value of
another type, has no answer.
-/

namespace TaggedOptions

/-- The text of a value, read back as the type that directives ask for. -/
def Directives.readBack? (d : Directives) (value : Value) : Option String :=
  match d.action, d.valueType with
  | .storeTrue, _ => value.flag?.map fun given => if given then "true" else "false"
  | .store, .abspath => value.path?
  | .store, .text => value.text?

structure Answer where
  dest : String
  value : String
  deriving DecidableEq, Repr

def Entry.answer? (m : Matches) (e : Entry) : Option Answer :=
  match m.first? e.dest with
  | none => none
  | some value => (e.declaration.directives.readBack? value).map (⟨e.dest, ·⟩)

/-- Adds the answer for an entry, unless its destination is answered already. -/
def addAnswer (m : Matches) (answers : List Answer) (e : Entry) : List Answer :=
  if answers.any (·.dest = e.dest) then answers
  else
    match e.answer? m with
    | some answer => answers ++ [answer]
    | none => answers

namespace Selection

def answers (s : Selection) (m : Matches) : List Answer := s.entries.foldl (addAnswer m) []

inductive Failure where
  | build (error : BuildError)
  | read (error : ReadError)
  | shown (request : Request) (text : String)
  deriving DecidableEq, Repr

def Failure.ofInterruption (c : Command) (calledAs : String) : Interruption → Failure
  | .refused e => .read e
  | .requested request => .shown request (c.reply calledAs request)

def matches? (s : Selection) (sys : Surroundings) (name : String) (argv : List String) :
    Except Failure Matches :=
  match s.command name with
  | .error e => .error (.build e)
  | .ok command =>
    match command.read sys argv with
    | .error i => .error (.ofInterruption command (Path.baseName name) i)
    | .ok m => .ok m

def parse (s : Selection) (sys : Surroundings) (name : String) (argv : List String) :
    Except Failure (List Answer) :=
  match s.matches? sys name argv with
  | .error e => .error e
  | .ok m => .ok (s.answers m)

def parseMessages (s : Selection) (name : String) (argv : List String) : List Log.Message :=
  let assembly := s.assembly name
  match assembly.finish with
  | .error _ => assembly.warnings
  | .ok command =>
    [⟨.debug, "parsing " ++ Text.quotedList argv ++ " with " ++
      toString command.arguments.length ++ " argument(s)"⟩]

end Selection

end TaggedOptions
