/-! # Documents

What is left of a manifest's text once its format is read: scalars, lists and tables.  The formats
differ in what a scalar may stand for, so a scalar lists its possible readings and the place where
it stands picks one.
-/

namespace TaggedOptions

inductive Loose where
  | flag (value : Bool)
  | text (value : String)
  deriving DecidableEq, Repr

inductive Presence where
  | present
  | absent
  | illegible
  deriving DecidableEq, Repr

/-- The readings of a scalar.  Each says what the scalar is at a place of one kind. -/
structure Scalar where
  text? : Option String := none
  flag? : Option Bool := none
  choice? : Option String := none
  loose? : Option Loose := none
  presence : Presence := .present
  /-- Whether it passes for an empty list or table. -/
  hollow : Bool := false
  deriving DecidableEq, Repr

inductive Keyless where
  | never
  /-- It may if it has a value for each key, and no other. -/
  | exact
  /-- It may if it starts with a value for each key. -/
  | leading
  deriving DecidableEq, Repr

def Keyless.admits (keyless : Keyless) (keys values : Nat) : Bool :=
  match keyless with
  | .never => false
  | .exact => keys = values
  | .leading => keys ≤ values

inductive Document where
  | scalar (readings : Scalar)
  | list (items : List Document) (keyless : Keyless)
  /-- A table in the order of its text.  A key that is no text is `none`.  A table may also spell
  one of a few words. -/
  | table (fields : List (Option String × Document)) (choice? : Option String)
  /-- A part that contains itself.  It can be skipped but not read. -/
  | endless
  deriving Repr, Inhabited

namespace Scalar

def ofText (s : String) : Scalar :=
  { text? := some s, choice? := some s, loose? := some (.text s) }

def ofFlag (b : Bool) : Scalar := { flag? := some b, loose? := some (.flag b) }

def null : Scalar := { presence := .absent }

def foreign : Scalar := {}

end Scalar

namespace Document

def text? : Document → Option String
  | .scalar s => s.text?
  | _ => none

def flag? : Document → Option Bool
  | .scalar s => s.flag?
  | _ => none

def choice? : Document → Option String
  | .scalar s => s.choice?
  | .table _ choice => choice
  | _ => none

def loose? : Document → Option Loose
  | .scalar s => s.loose?
  | _ => none

def presence : Document → Presence
  | .scalar s => s.presence
  | _ => .present

def items? : Document → Option (List Document)
  | .list items _ => some items
  | .scalar s => if s.hollow then some [] else none
  | _ => none

end Document

end TaggedOptions
