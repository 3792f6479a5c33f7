import TaggedOptions.Manifest.Document

/-! # Tables put together from lines

A TOML text gives its tables in pieces: a header opens a table anywhere, and a line may name its
value by a path.  The rules here say which pieces fit together.  A table is defined at most once,
and a value is set at most once.
-/

namespace TaggedOptions.Toml

inductive Origin where
  /-- By a header of its own. -/
  | defined
  /-- By a header of a table inside it. -/
  | implied
  /-- By the path of a value inside it. -/
  | dotted
  deriving DecidableEq, Repr

inductive Slot where
  | value (document : Document)
  | table (origin : Origin) (fields : List (String × Slot))
  /-- A list of tables, of which the last one may grow.  The earlier ones come last first. -/
  | tables (earlier : List (List (String × Slot))) (last : List (String × Slot))

abbrev Fields := List (String × Slot)

namespace Fields

def slot? (fields : Fields) (key : String) : Option Slot := fields.lookup key

/-- Puts a slot under a key, in the place of the old one if there is one. -/
def put (fields : Fields) (key : String) (slot : Slot) : Fields :=
  if (fields.slot? key).isSome then
    fields.map fun field => if field.1 = key then (key, slot) else field
  else fields ++ [(key, slot)]

end Fields

/-- The table that a path goes through: how it came into being, its fields, and what stands there
once these are changed.  The path of a value does not go through a table with a header. -/
def Slot.entered? (dotted : Bool) : Slot → Option (Origin × Fields × (Fields → Slot))
  | .value _ => none
  | .table origin fields =>
    if dotted && origin = .defined then none else some (origin, fields, .table origin)
  -- a path goes on in the last table of a list
  | .tables earlier last => some (.defined, last, .tables earlier)

namespace Fields

/-- Changes the table at the end of a path.  Tables on the way that are missing are made. -/
def change (dotted : Bool) (act : Origin → Fields → Option Fields) :
    List String → Origin → Fields → Option Fields
  | [], origin, fields => act origin fields
  | key :: path, _, fields =>
    match fields.slot? key with
    | none =>
      let made := if dotted then .dotted else .implied
      (change dotted act path made []).map fun sub => fields.put key (.table made sub)
    | some slot =>
      match slot.entered? dotted with
      | none => none
      | some (origin, sub, rebuild) =>
        (change dotted act path origin sub).map fun sub => fields.put key (rebuild sub)

/-- Sets the value at the end of a path.  All but its last key name a table that only paths of
values made. -/
def assign (fields : Fields) (path : List String) (value : Document) : Option Fields :=
  match path.getLast? with
  | none => none
  | some key =>
    change true
      (fun origin fields =>
        if 1 < path.length && origin != .dotted then none
        else if (fields.slot? key).isSome then none
        else some (fields.put key (.value value)))
      path.dropLast .defined fields

def assignAll (fields : Fields) : List (List String × Document) → Option Fields
  | [] => some fields
  | (path, value) :: rest =>
    match fields.assign path value with
    | none => none
    | some fields => assignAll fields rest

end Fields

inductive Header where
  | none
  | table (path : List String)
  | tables (path : List String)
  deriving DecidableEq, Repr

structure Section where
  header : Header
  assignments : List (List String × Document)

namespace Fields

def addSection (fields : Fields) (piece : Section) : Option Fields :=
  match piece.header with
  | .none => fields.assignAll piece.assignments
  | .table path =>
    match path.getLast? with
    | none => none
    | some key =>
      change false
        (fun _ fields =>
          match fields.slot? key with
          | none =>
            (assignAll [] piece.assignments).map fun t => fields.put key (.table .defined t)
          | some (.table .implied sub) =>
            (assignAll sub piece.assignments).map fun t => fields.put key (.table .defined t)
          | some _ => none)
        path.dropLast .defined fields
  | .tables path =>
    match path.getLast? with
    | none => none
    | some key =>
      change false
        (fun _ fields =>
          match fields.slot? key with
          | none => (assignAll [] piece.assignments).map fun t => fields.put key (.tables [] t)
          | some (.tables earlier last) =>
            (assignAll [] piece.assignments).map fun t =>
              fields.put key (.tables (last :: earlier) t)
          | some _ => none)
        path.dropLast .defined fields

def addAll (fields : Fields) : List Section → Option Fields
  | [] => some fields
  | s :: rest =>
    match fields.addSection s with
    | none => none
    | some fields => addAll fields rest

end Fields

/-- Whether a value says nothing more than that it is there. -/
def isBare : Document → Bool
  | .table [] _ => true
  | .list [] _ => true
  | _ => false

def tableOf (fields : List (String × Document)) : Document :=
  .table (fields.map fun (key, value) => (some key, value)) <|
    match fields with
    | [(word, value)] => if isBare value then some word else none
    | _ => none

mutual

def Slot.document : Slot → Document
  | .value d => d
  | .table _ fields => tableOf (documents fields)
  | .tables earlier last =>
    .list (listed earlier [tableOf (documents last)]) .leading

def documents : List (String × Slot) → List (String × Document)
  | [] => []
  | (key, slot) :: rest => (key, slot.document) :: documents rest

/-- Tables before others, the last one first. -/
def listed : List (List (String × Slot)) → List Document → List Document
  | [], later => later
  | fields :: rest, later => listed rest (tableOf (documents fields) :: later)

end

end TaggedOptions.Toml
