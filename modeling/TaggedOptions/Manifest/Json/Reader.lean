import TaggedOptions.Manifest.Document
import TaggedOptions.Manifest.Json.Token

/-! # Reading JSON

The tokens of a JSON text are put together by a stack of open lists and tables.  The text has to
be exactly one value.
-/

namespace TaggedOptions.Json

inductive Open where
  | list (items : List Document)
  /-- A table with its fields so far, the last one first, and the key that waits for its value. -/
  | table (fields : List (Option String × Document)) (key : Option String)

inductive Expected where
  | value
  | itemOrEnd
  | key
  | keyOrEnd
  | colon
  | more
  | nothing (value : Document)

/-- A table, which spells a word if its only field says nothing more. -/
def tableOf (fields : List (Option String × Document)) : Document :=
  .table fields <|
    match fields with
    | [(some word, .scalar s)] => if s = Scalar.null then some word else none
    | _ => none

def close (value : Document) : List Open → List Open × Expected
  | [] => ([], .nothing value)
  | .list items :: rest => (.list (value :: items) :: rest, .more)
  | .table fields key :: rest => (.table ((key, value) :: fields) none :: rest, .more)

def takeValue (stack : List Open) : Token → Option (List Open × Expected)
  | .openList => some (.list [] :: stack, .itemOrEnd)
  | .openTable => some (.table [] none :: stack, .keyOrEnd)
  | .text (some s) => some (close (.scalar (.ofText s)) stack)
  | .text none => some (close (.scalar .foreign) stack)
  | .number => some (close (.scalar .foreign) stack)
  | .flag b => some (close (.scalar (.ofFlag b)) stack)
  | .null => some (close (.scalar .null) stack)
  | _ => none

def takeKey (stack : List Open) : Token → Option (List Open × Expected)
  | .text key =>
    match stack with
    | .table fields _ :: rest => some (.table fields key :: rest, .colon)
    | _ => none
  | _ => none

def take (stack : List Open) (expected : Expected) (token : Token) :
    Option (List Open × Expected) :=
  match expected with
  | .value => takeValue stack token
  | .itemOrEnd =>
    match token, stack with
    | .closeList, .list items :: rest => some (close (.list items.reverse .exact) rest)
    | _, _ => takeValue stack token
  | .key => takeKey stack token
  | .keyOrEnd =>
    match token, stack with
    | .closeTable, .table fields _ :: rest => some (close (tableOf fields.reverse) rest)
    | _, _ => takeKey stack token
  | .colon => if token = .colon then some (stack, .value) else none
  | .more =>
    match token, stack with
    | .comma, .list _ :: _ => some (stack, .value)
    | .comma, .table _ _ :: _ => some (stack, .key)
    | .closeList, .list items :: rest => some (close (.list items.reverse .exact) rest)
    | .closeTable, .table fields _ :: rest => some (close (tableOf fields.reverse) rest)
    | _, _ => none
  | .nothing _ => none

def takeAll (stack : List Open) (expected : Expected) : List Token → Option Document
  | [] =>
    match expected with
    | .nothing value => some value
    | _ => none
  | token :: rest =>
    match take stack expected token with
    | some (stack, expected) => takeAll stack expected rest
    | none => none

def read? (text : String) : Option Document :=
  match tokens? text.toList with
  | some tokens => takeAll [] .value tokens
  | none => none

end TaggedOptions.Json
