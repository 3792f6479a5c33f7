import TaggedOptions.Command.Argument

/-! # Matches

What reading an argument vector yields: for each argument that has a value, the values under its
id.  A value keeps its type, so that it can only be read back as what it was stored as.
-/

namespace TaggedOptions

inductive Value where
  | flag (given : Bool)
  | text (value : String)
  | path (value : String)
  deriving DecidableEq, Repr

namespace Value

def flag? : Value → Option Bool
  | .flag given => some given
  | _ => none

def text? : Value → Option String
  | .text value => some value
  | _ => none

def path? : Value → Option String
  | .path value => some value
  | _ => none

end Value

structure Match where
  id : String
  values : List Value
  deriving DecidableEq, Repr

abbrev Matches := List Match

namespace Matches

def get? (m : Matches) (id : String) : Option (List Value) :=
  (m.find? (·.id = id)).map (·.values)

def has (m : Matches) (id : String) : Bool := m.any (·.id = id)

/-- Adds values under an id, behind those that are there. -/
def append (m : Matches) (id : String) (values : List Value) : Matches :=
  if m.has id then m.map fun x => if x.id = id then { x with values := x.values ++ values } else x
  else m ++ [⟨id, values⟩]

def first? (m : Matches) (id : String) : Option Value := (m.get? id).bind List.head?

end Matches

end TaggedOptions
