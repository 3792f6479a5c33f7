/-! # The tokens of a YAML text

Tokens say outright what a YAML text says by its indentation: where the lists and tables in indented
lines start and end, and which scalar is a key.
-/

namespace TaggedOptions.Yaml

/-- The styles of scalars, as far as they make a difference to what a scalar means. -/
inductive Style where
  | plain
  | literal
  | quoted
  deriving DecidableEq, Repr

inductive Token where
  | version (major minor : Nat)
  | handle (name stem : String)
  | documentStart
  | documentEnd
  | blockList
  | blockTable
  | blockEnd
  | openList
  | closeList
  | openTable
  | closeTable
  | comma
  | entry
  /-- The start of a key, written as a question mark or found out. -/
  | key
  | value
  | anchor (name : String)
  | alias (name : String)
  | tag (handle rest : String)
  | scalar (style : Style) (text : String)
  | streamEnd
  deriving DecidableEq, Repr

end TaggedOptions.Yaml
