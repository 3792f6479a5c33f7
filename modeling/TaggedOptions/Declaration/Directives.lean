/-! # Directives of a declaration

What a declared option asks of the parser: whether it takes a value, how that value is read, what
stands in for it when it is not given, and under which name it is answered.
-/

namespace TaggedOptions

inductive Action where
  | store
  | storeTrue
  deriving DecidableEq, Repr, Inhabited

namespace Action

def word : Action → String
  | .store => "store"
  | .storeTrue => "store_true"

end Action

inductive ValueType where
  | text
  /-- The value names a place and is resolved to an absolute path. -/
  | abspath
  deriving DecidableEq, Repr, Inhabited

namespace ValueType

def word : ValueType → String
  | .text => "text"
  | .abspath => "abspath"

end ValueType

inductive DefaultValue where
  | text (value : String)
  | path (value : String)
  | flag (value : Bool)
  deriving DecidableEq, Repr

namespace DefaultValue

def toText : DefaultValue → String
  | .text value => value
  | .path value => value
  | .flag value => if value then "true" else "false"

end DefaultValue

structure Directives where
  action : Action := .store
  valueType : ValueType := .text
  default : Option DefaultValue := none
  required : Bool := false
  /-- The destination, where it is not derived from the spellings. -/
  dest : Option String := none
  help : Option String := none
  deriving DecidableEq, Repr, Inhabited

end TaggedOptions
