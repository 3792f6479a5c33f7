import TaggedOptions.Manifest.Yaml.Layout
import TaggedOptions.Manifest.Yaml.Scalar

/-! # Reading YAML

A YAML text has to be one document at most.  A node that an alias stands for is read once and
shared; what contains itself is endless.
-/

namespace TaggedOptions.Yaml

mutual

/-- The labelled parts of a node, in the order in which they start. -/
def Node.labelled : Node → List (Nat × Node)
  | .scalar label tag style text =>
    label.toList.map fun n => (n, .scalar label tag style text)
  | .list label items =>
    (label.toList.map fun n => (n, .list label items)) ++ labelledItems items
  | .table label fields =>
    (label.toList.map fun n => (n, .table label fields)) ++ labelledFields fields
  | .alias _ => []

def labelledItems : List Node → List (Nat × Node)
  | [] => []
  | node :: rest => node.labelled ++ labelledItems rest

def labelledFields : List (Node × Node) → List (Nat × Node)
  | [] => []
  | (key, value) :: rest => key.labelled ++ (value.labelled ++ labelledFields rest)

end

abbrev Labels := List (Nat × Document)

mutual

/-- The document of a node.  A label that is missing stands for what contains itself. -/
def Node.document (labels : Labels) : Node → Document
  | .scalar _ tag style text => .scalar (readings tag style text)
  | .list _ items => .list (itemDocuments labels items) .never
  | .table _ fields => .table (fieldDocuments labels fields) none
  | .alias label => (labels.lookup label).getD .endless

def itemDocuments (labels : Labels) : List Node → List Document
  | [] => []
  | node :: rest => node.document labels :: itemDocuments labels rest

def fieldDocuments (labels : Labels) : List (Node × Node) → List (Option String × Document)
  | [] => []
  | (key, value) :: rest =>
    ((key.document labels).text?, value.document labels) :: fieldDocuments labels rest

end

/-- The documents of labels when aliases are followed `depth` times. -/
def labelsTo (nodes : List (Nat × Node)) : Nat → Labels
  | 0 => []
  | depth + 1 =>
    let labels := labelsTo nodes depth
    nodes.map fun (label, node) => (label, node.document labels)

def read? (text : String) : Option Document :=
  match ((characters? text).bind tokens?).bind root? with
  | none => none
  | some root =>
    let nodes := root.labelled.reverse
    some (root.document (labelsTo nodes nodes.length))

end TaggedOptions.Yaml
