import TaggedOptions.Manifest.Toml.Literal
import TaggedOptions.Manifest.Toml.Table
import TaggedOptions.Manifest.Toml.Token

/-! # Reading TOML

The tokens of a TOML text are put together line by line into sections.  Within a line a stack holds
the lists and tables that are still open, and these may go over several lines.
-/

namespace TaggedOptions.Toml

inductive Open where
  | list (items : List Document)
  | table (fields : Fields) (path : List String)

inductive KeyUse where
  | table
  | tables
  | value
  deriving DecidableEq, Repr

inductive Expected where
  | line
  | header
  | word (use : KeyUse) (path : List String)
  | wordEnd (use : KeyUse) (path : List String)
  | equals (path : List String)
  | headerEnd (path : List String)
  | lineEnd
  | value
  /-- More of a value without quotes, behind which there are `blanks` blanks. -/
  | literal (written : List Char) (blanks : Nat)
  | itemOrEnd
  | keyOrEnd
  | more
  deriving DecidableEq, Repr

structure Page where
  sections : List Section := []
  header : Header := .none
  assignments : List (List String × Document) := []
  path : List String := []
  stack : List Open := []
  expected : Expected := .line

/-- The number of lists and tables that may be open at once, and of words in a key. -/
def depthLimit : Nat := 80

namespace Page

def allSections (p : Page) : List Section :=
  (⟨p.header, p.assignments.reverse⟩ :: p.sections).reverse

def startSection (p : Page) (header : Header) : Page :=
  { p with
    sections := ⟨p.header, p.assignments.reverse⟩ :: p.sections
    header := header
    assignments := []
    expected := .lineEnd }

def putValue (p : Page) (value : Document) : Option Page :=
  match p.stack with
  | [] => some { p with assignments := (p.path, value) :: p.assignments, expected := .lineEnd }
  | .list items :: rest =>
    some { p with stack := .list (value :: items) :: rest, expected := .more }
  | .table fields path :: rest =>
    match fields.assign path value with
    | none => none
    | some fields => some { p with stack := .table fields [] :: rest, expected := .more }

def putPath (p : Page) (path : List String) : Page :=
  match p.stack with
  | .table fields _ :: rest => { p with stack := .table fields path :: rest, expected := .value }
  | _ => { p with path := path, expected := .value }

def push (p : Page) (o : Open) (expected : Expected) : Option Page :=
  if p.stack.length < depthLimit then some { p with stack := o :: p.stack, expected := expected }
  else none

def closeList (p : Page) : Option Page :=
  match p.stack with
  | .list items :: rest => { p with stack := rest }.putValue (.list items.reverse .leading)
  | _ => none

def closeTable (p : Page) : Option Page :=
  match p.stack with
  | .table fields _ :: rest => { p with stack := rest }.putValue (tableOf (documents fields))
  | _ => none

def takeValue (p : Page) : Token → Option Page
  | .openList => p.push (.list []) .itemOrEnd
  | .openTable => p.push (.table [] []) .keyOrEnd
  | .text s _ => p.putValue (.scalar (.ofText s))
  | .bare written => some { p with expected := .literal written 0 }
  | _ => none

def isBareKey (cs : List Char) : Bool := cs.all fun c => c.isAlphanum || c = '_' || c = '-'

def takeWord (p : Page) (use : KeyUse) (path : List String) : Token → Option Page
  | .text s false => some { p with expected := .wordEnd use (path ++ [s]) }
  | .bare cs =>
    if isBareKey cs then some { p with expected := .wordEnd use (path ++ [String.ofList cs]) }
    else none
  | .blank => some { p with expected := .word use path }
  | _ => none

def takeWordEnd (p : Page) (use : KeyUse) (path : List String) : Token → Option Page
  | .blank => some p
  | .dot => if path.length < depthLimit then some { p with expected := .word use path } else none
  | .equals => if use = .value then some (p.putPath path) else none
  | .closeList =>
    match use with
    | .table => some (p.startSection (.table path))
    | .tables => some { p with expected := .headerEnd path }
    | .value => none
  | .newline =>
    if use = .value && !p.stack.isEmpty then some { p with expected := .equals path } else none
  | _ => none

def takeMore (p : Page) : Token → Option Page
  | .blank => some p
  | .newline => some p
  | .comma =>
    match p.stack with
    | .list _ :: _ => some { p with expected := .itemOrEnd }
    | .table _ _ :: _ => some { p with expected := .keyOrEnd }
    | [] => none
  | .closeList => p.closeList
  | .closeTable => p.closeTable
  | _ => none

def takeLineEnd (p : Page) : Token → Option Page
  | .blank => some p
  | .newline => some { p with expected := .line }
  | _ => none

def putLiteral (p : Page) (written : List Char) : Option Page :=
  match literal? written with
  | none => none
  | some s => p.putValue (.scalar s)

def takeLiteral (p : Page) (written : List Char) (blanks : Nat) (token : Token) : Option Page :=
  match token, blanks with
  | .blank, _ => some { p with expected := .literal written (blanks + 1) }
  | .dot, 0 => some { p with expected := .literal (written ++ ['.']) 0 }
  | .bare cs, 0 => some { p with expected := .literal (written ++ cs) 0 }
  -- one blank may stand between a day and a time
  | .bare cs, 1 =>
    if isDate written then some { p with expected := .literal (written ++ ' ' :: cs) 0 } else none
  | _, _ =>
    match p.putLiteral written with
    | none => none
    | some p => if p.stack.isEmpty then p.takeLineEnd token else p.takeMore token

def take (p : Page) (token : Token) : Option Page :=
  match p.expected with
  | .line =>
    match token with
    | .blank => some p
    | .newline => some p
    | .openList => some { p with expected := .header }
    | _ => p.takeWord .value [] token
  | .header =>
    match token with
    | .openList => some { p with expected := .word .tables [] }
    | _ => p.takeWord .table [] token
  | .word use path => p.takeWord use path token
  | .wordEnd use path => p.takeWordEnd use path token
  | .equals path =>
    match token with
    | .blank => some p
    | .newline => some p
    | .equals => some (p.putPath path)
    | _ => none
  | .headerEnd path => if token = .closeList then some (p.startSection (.tables path)) else none
  | .lineEnd => p.takeLineEnd token
  | .value =>
    match token with
    | .blank => some p
    | .newline => if p.stack.isEmpty then none else some p
    | _ => p.takeValue token
  | .literal written blanks => p.takeLiteral written blanks token
  | .itemOrEnd =>
    match token with
    | .blank => some p
    | .newline => some p
    | .closeList => p.closeList
    | _ => p.takeValue token
  | .keyOrEnd =>
    match token with
    | .blank => some p
    | .newline => some p
    | .closeTable => p.closeTable
    | _ => p.takeWord .value [] token
  | .more => p.takeMore token

def takeAll (p : Page) : List Token → Option Page
  | [] => some p
  | token :: rest =>
    match p.take token with
    | none => none
    | some p => takeAll p rest

end Page

def sections? (text : List Char) : Option (List Section) :=
  match tokens? text with
  | none => none
  | some tokens =>
    match Page.takeAll {} (tokens ++ [.newline]) with
    | none => none
    | some p => if p.expected = .line then some p.allSections else none

def read? (text : String) : Option Document :=
  match sections? (Text.withoutMark text.toList) with
  | none => none
  | some sections => (Fields.addAll [] sections).map fun fields => tableOf (documents fields)

end TaggedOptions.Toml
