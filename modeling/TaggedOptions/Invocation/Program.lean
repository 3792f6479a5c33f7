import TaggedOptions.Invocation.Run

/-! # The program

The whole program as a function from arguments to exit code and output.  Help and version go to
the standard output; a command line that cannot be read ends with code 2, every other fault with
code 1.
-/

namespace TaggedOptions

structure Outcome where
  code : Nat
  stdout : String := ""
  stderr : String := ""
  deriving DecidableEq, Repr

namespace ReadError

/-- What is wrong with an argument vector.  Only flags know their values, and only the empty path is
refused.  Tips about similar names are left out. -/
def message : ReadError → String
  | .unknownArgument arg => "unexpected argument '" ++ arg ++ "' found"
  | .missingRequired args =>
    "the following required arguments were not provided:" ++
      "".intercalate (args.map ("\n  " ++ ·))
  | .noValue arg => "a value is required for '" ++ arg ++ "' but none was supplied"
  | .invalidValue arg value =>
    "invalid value '" ++ value ++ "' for '" ++ arg ++ "'\n  [possible values: true, false]"
  | .refusedValue arg value =>
    "invalid value '" ++ value ++ "' for '" ++ arg ++ "': cannot make an empty path absolute"
  | .repeated arg => "the argument '" ++ arg ++ "' cannot be used multiple times"
  | .unexpectedValue arg value =>
    "unexpected value '" ++ value ++ "' for '" ++ arg ++ "' found; no more were expected"

/-- Whether the usage line follows what is wrong: not where only a value is. -/
def showsUsage : ReadError → Bool
  | .noValue _ => false
  | .invalidValue _ _ => false
  | .refusedValue _ _ => false
  | _ => true

def complaint (c : Command) (calledAs : String) (e : ReadError) : String :=
  "\n\n".intercalate (["error: " ++ e.message] ++
    (if e.showsUsage then [c.usage calledAs] else []) ++
    ["For more information, try '--help'.\n"])

end ReadError

namespace Program

def ofReadError (c : Command) (calledAs : String) (e : ReadError) : Outcome :=
  { code := 2, stderr := e.complaint c calledAs }

def ofInterruption (c : Command) (calledAs : String) : Interruption → Outcome
  | .refused e => ofReadError c calledAs e
  | .requested request => { code := 0, stdout := c.reply calledAs request }

def ofInvocation (s : Surroundings) (i : Invocation) : Outcome :=
  match i.run s with
  | .ok text => { code := 0, stdout := text }
  | .error (.manifest e) => { code := 1, stderr := "Error: " ++ e.message ++ "\n" }
  | .error (.build e) => { code := 1, stderr := "Error: " ++ e.message ++ "\n" }
  | .error (.shown _ text) => { code := 0, stdout := text }
  | .error (.read e) =>
    match i.selection s with
    | .error e => { code := 1, stderr := "Error: " ++ e.message ++ "\n" }
    | .ok selection => ofReadError (selection.assembly i.prog).command (Path.baseName i.prog) e

def run (s : Surroundings) (args : List String) : Outcome :=
  match Invocation.read s args with
  | .error stop => ofInterruption Invocation.command Invocation.command.name stop
  | .ok i => ofInvocation s i

end Program

end TaggedOptions
