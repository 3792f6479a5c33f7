import TaggedOptions.Registry.Selection

/-! # Listings

A listing shows one row for each selected entry, repetitions included, with every column as text.
-/

namespace TaggedOptions

structure Row where
  spellings : String
  tags : String
  action : String
  valueType : String
  default : String
  required : Bool
  dest : String
  deriving DecidableEq, Repr

namespace Row

def ofDeclaration (d : Declaration) : Row where
  spellings := ", ".intercalate d.spellings
  tags := d.tagText
  action := d.directives.action.word
  valueType := d.directives.valueType.word
  default := (d.directives.default.map DefaultValue.toText).getD ""
  required := d.directives.required
  dest := d.dest

end Row

def Selection.rows (s : Selection) : List Row := s.declarations.map Row.ofDeclaration

end TaggedOptions
