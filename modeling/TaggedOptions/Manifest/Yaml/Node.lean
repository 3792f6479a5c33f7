import TaggedOptions.Manifest.Yaml.Token

/-! # Nodes

The tokens of a YAML text are put together by a stack of open lists and tables.  What is left out,
such as the value behind a key that has none, is an empty scalar; and some lists and tables end
without a token of their own.  So before a token is taken, whatever ends in front of it is
completed.
-/

namespace TaggedOptions.Yaml

/-- A part of a document.  The label of a node is the number of its anchor. -/
inductive Node where
  | scalar (label : Option Nat) (tag : Option String) (style : Style) (text : String)
  | list (label : Option Nat) (items : List Node)
  | table (label : Option Nat) (fields : List (Node × Node))
  | alias (label : Nat)
  deriving Repr, Inhabited

structure Properties where
  anchor : Option String := none
  tag : Option String := none
  deriving DecidableEq, Repr

inductive ListForm where
  | block
  | bare
  | flow
  deriving DecidableEq, Repr

inductive TableForm where
  | block
  | flow
  /-- As an item of a list within brackets, and then it has one key. -/
  | pair
  deriving DecidableEq, Repr

inductive Part where
  | key
  | loneKey
  | value (key : Node)

inductive Open where
  | list (form : ListForm) (label : Option Nat) (items : List Node)
  | table (form : TableForm) (label : Option Nat) (fields : List (Node × Node)) (part : Part)

inductive Expected where
  | document
  | node (properties : Properties)
  | first
  | next
  | finished (root : Node)

structure Draft where
  version : Option (Nat × Nat) := none
  handles : List (String × String) := []
  marked : Bool := false
  anchors : List (String × Nat) := []
  stack : List Open := []
  expected : Expected := .document

def Node.empty : Node := .scalar none none .plain ""

namespace Properties

def isEmpty (p : Properties) : Bool := p.anchor.isNone && p.tag.isNone

end Properties

namespace Draft

/-! ## Labels and tags -/

/-- The label of the next anchor: the number of names that anchors have so far.  Two anchors may
have the same label if a third one took over the name of one of them. -/
def label (d : Draft) (anchor : Option String) : Draft × Option Nat :=
  match anchor with
  | none => (d, none)
  | some name =>
    let label := d.anchors.length
    ({ d with anchors := (name, label) :: d.anchors.filter (·.1 != name) }, some label)

def stem? (d : Draft) (handle : String) : Option String :=
  match d.handles.lookup handle with
  | some stem => some stem
  | none =>
    match handle with
    | "!" => some "!"
    | "!!" => some "tag:yaml.org,2002:"
    | "" => some ""
    | _ => none

/-! ## Completing nodes -/

def put (d : Draft) (node : Node) : Draft :=
  match d.stack with
  | [] => { d with expected := .finished node }
  | .list form label items :: rest =>
    { d with stack := .list form label (node :: items) :: rest, expected := .next }
  | .table form label fields part :: rest =>
    let (fields, part) :=
      match part with
      | .key => (fields, .value node)
      | .loneKey => ((node, .empty) :: fields, .key)
      | .value key => ((key, node) :: fields, .key)
    { d with stack := .table form label fields part :: rest, expected := .next }

def putEmpty (d : Draft) (p : Properties) : Draft :=
  let (d, label) := d.label p.anchor
  d.put (.scalar label p.tag .plain "")

def openList (d : Draft) (p : Properties) (form : ListForm) (expected : Expected) : Draft :=
  let (d, label) := d.label p.anchor
  { d with stack := .list form label [] :: d.stack, expected := expected }

def openTable (d : Draft) (p : Properties) (form : TableForm) (expected : Expected) : Draft :=
  let (d, label) := d.label p.anchor
  { d with stack := .table form label [] .key :: d.stack, expected := expected }

def close (d : Draft) : Draft :=
  match d.stack with
  | [] => d
  | .list _ label items :: rest => { d with stack := rest }.put (.list label items.reverse)
  | .table _ label fields _ :: rest => { d with stack := rest }.put (.table label fields.reverse)

/-- Whether an item at the column of a key belongs to that key. -/
def bareAllowed (d : Draft) : Bool :=
  match d.stack with
  | .table .block _ _ _ :: _ => true
  | _ => false

def goesOn (d : Draft) (p : Properties) : Token → Bool
  | .scalar _ _ => true
  | .openList => true
  | .openTable => true
  | .blockList => true
  | .blockTable => true
  | .entry => d.bareAllowed
  | .anchor _ => p.anchor.isNone
  | .tag _ _ => p.tag.isNone
  | _ => false

def isLeftOut (d : Draft) (t : Token) : Bool :=
  match d.stack with
  -- a document without a mark starts with its first token
  | [] =>
    d.marked &&
      match t with
      | .version _ _ => true
      | .handle _ _ => true
      | .documentStart => true
      | .documentEnd => true
      | .streamEnd => true
      | _ => false
  | .list .block _ _ :: _ => t = .entry || t = .blockEnd
  | .list .bare _ _ :: _ => t = .entry || t = .key || t = .value || t = .blockEnd
  | .list .flow _ _ :: _ => false
  | .table .block _ _ _ :: _ => t = .key || t = .value || t = .blockEnd
  | .table .flow _ _ .key :: _ => t = .value || t = .comma || t = .closeTable
  | .table .flow _ _ .loneKey :: _ => false
  | .table .flow _ _ (.value _) :: _ => t = .comma || t = .closeTable
  | .table .pair _ _ (.value _) :: _ => t = .comma || t = .closeList
  | .table .pair _ _ _ :: _ => false

def completeNode (d : Draft) (t : Token) : Draft :=
  match d.expected with
  | .node p =>
    if p.isEmpty then if d.isLeftOut t then d.putEmpty p else d
    else if d.goesOn p t then d
    else d.putEmpty p
  | _ => d

/-- Completes a list at the column of a key, which ends with its last item. -/
def completeBareList (d : Draft) (t : Token) : Draft :=
  match d.expected, d.stack with
  | .next, .list .bare _ _ :: _ => if t = .entry then d else d.close
  | _, _ => d

def completeField (d : Draft) (t : Token) : Draft :=
  match d.expected, d.stack with
  | .next, .table _ _ _ (.value _) :: _ => if t = .value then d else d.put .empty
  | _, _ => d

def completePair (d : Draft) : Draft :=
  match d.expected, d.stack with
  | .next, .table .pair _ _ .key :: _ => d.close
  | _, _ => d

def complete (d : Draft) (t : Token) : Draft :=
  (((d.completeNode t).completeBareList t).completeField t).completePair

/-! ## Taking tokens -/

def takeNode (d : Draft) (p : Properties) (t : Token) : Option Draft :=
  match t with
  | .alias name =>
    if p.isEmpty then (d.anchors.lookup name).map fun label => d.put (.alias label) else none
  | .anchor name =>
    if p.anchor.isNone then some { d with expected := .node { p with anchor := some name } }
    else none
  | .tag handle rest =>
    if p.tag.isNone then
      (d.stem? handle).map fun stem =>
        { d with expected := .node { p with tag := some (stem ++ rest) } }
    else none
  | .scalar style text =>
    let (d, label) := d.label p.anchor
    some (d.put (.scalar label (p.tag.filter (· != "!")) style text))
  | .openList => some (d.openList p .flow .first)
  | .openTable => some (d.openTable p .flow .first)
  | .blockList => some (d.openList p .block .next)
  | .blockTable => some (d.openTable p .block .next)
  | .entry => if d.bareAllowed then some (d.openList p .bare (.node {})) else none
  | .value | .comma | .closeList =>
    -- the token that shows that the key of a pair is left out is used up by this
    match d.stack with
    | .table .pair _ _ .key :: _ => if p.isEmpty then some (d.putEmpty p) else none
    | _ => none
  | _ => none

def takeFirst (d : Draft) (t : Token) : Option Draft :=
  match d.stack with
  | .list .flow _ _ :: _ =>
    match t with
    | .closeList => some d.close
    | .key => some (d.openTable {} .pair (.node {}))
    | _ => { d with expected := .node {} }.takeNode {} t
  | .table .flow label fields _ :: rest =>
    match t with
    | .closeTable => some d.close
    | .key => some { d with expected := .node {} }
    | _ => { d with stack := .table .flow label fields .loneKey :: rest }.takeNode {} t
  | _ => none

def takeNext (d : Draft) (t : Token) : Option Draft :=
  match d.stack, t with
  | .list .block _ _ :: _, .entry => some { d with expected := .node {} }
  | .list .block _ _ :: _, .blockEnd => some d.close
  | .list .bare _ _ :: _, .entry => some { d with expected := .node {} }
  | .list .flow _ _ :: _, .comma => some { d with expected := .first }
  | .list .flow _ _ :: _, .closeList => some d.close
  | .table _ _ _ (.value _) :: _, .value => some { d with expected := .node {} }
  | .table .block _ _ .key :: _, .key => some { d with expected := .node {} }
  | .table .block _ _ .key :: _, .blockEnd => some d.close
  | .table .flow _ _ .key :: _, .comma => some { d with expected := .first }
  | .table .flow _ _ .key :: _, .closeTable => some d.close
  | _, _ => none

def takeDocument (d : Draft) (t : Token) : Option Draft :=
  match t with
  | .version major minor =>
    if d.version.isNone && major = 1 && (minor = 1 || minor = 2) then
      some { d with version := some (major, minor) }
    else none
  | .handle name stem =>
    if (d.handles.lookup name).isSome then none
    else some { d with handles := (name, stem) :: d.handles }
  | .documentStart => some { d with marked := true, expected := .node {} }
  | _ =>
    if d.version.isSome || !d.handles.isEmpty then none
    else if t = .streamEnd then some (d.put .empty)
    else { d with expected := .node {} }.takeNode {} t

def take (d : Draft) (t : Token) : Option Draft :=
  let d := d.complete t
  match d.expected with
  | .document => d.takeDocument t
  | .node p => d.takeNode p t
  | .first => d.takeFirst t
  | .next => d.takeNext t
  | .finished _ => if t = .documentEnd || t = .streamEnd then some d else none

def takeAll (d : Draft) : List Token → Option Draft
  | [] => some d
  | t :: rest =>
    match d.take t with
    | none => none
    | some d => takeAll d rest

end Draft

def root? (tokens : List Token) : Option Node :=
  match Draft.takeAll {} tokens with
  | some { expected := .finished root, .. } => some root
  | _ => none

end TaggedOptions.Yaml
