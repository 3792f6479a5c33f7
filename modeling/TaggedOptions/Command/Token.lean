/-! # Tokens of an argument vector

An element of an argument vector is the separator `--`, a long flag with or without an attached
value, a cluster of short flags, or a word.  A single dash is a word.
-/

namespace TaggedOptions

inductive Token where
  | separator
  | long (name : String) (value : Option String)
  | cluster (first : Char) (rest : List Char)
  | word
  deriving DecidableEq, Repr

namespace Token

/-- The characters up to the first `=`, and those behind it if there is one. -/
def splitAtEquals (cs : List Char) : List Char × Option (List Char) :=
  match cs.span (· ≠ '=') with
  | (before, []) => (before, none)
  | (before, _ :: after) => (before, some after)

def ofChars : List Char → Token
  | ['-', '-'] => .separator
  | '-' :: '-' :: rest =>
    let (name, value) := splitAtEquals rest
    .long (String.ofList name) (value.map String.ofList)
  | '-' :: c :: rest => .cluster c rest
  | _ => .word

def ofString (s : String) : Token := ofChars s.toList

end Token

end TaggedOptions
