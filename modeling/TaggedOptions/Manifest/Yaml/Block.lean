import TaggedOptions.Manifest.Yaml.Stream

/-! # Scalars in indented lines

A block scalar is a run of indented lines below a header.  The first line that is not empty sets
the indentation unless the header does.  In the folded kind a single end of line between two lines
of running text reads as a space.
-/

namespace TaggedOptions.Yaml

inductive Chomping where
  | strip
  | clip
  | keep
  deriving DecidableEq, Repr

structure BlockHeader where
  chomping : Chomping := .clip
  increment : Option Nat := none
  deriving DecidableEq, Repr

def chomping? : Char → Option Chomping
  | '-' => some .strip
  | '+' => some .keep
  | _ => none

def increment? (c : Char) : Option Nat :=
  if c.isDigit && c != '0' then some (c.toNat - '0'.toNat) else none

def isLineOver (cs : List Char) : Bool :=
  match cs.dropWhile Text.isSpaceOrTab with
  | [] => true
  | c :: _ => c = '#'

def blockHeader? (cs : List Char) : Option BlockHeader :=
  let (header, rest) : BlockHeader × List Char :=
    match cs with
    | a :: b :: rest =>
      match chomping? a, increment? a with
      | some chomping, _ =>
        match increment? b with
        | some n => (⟨chomping, some n⟩, rest)
        | none => (⟨chomping, none⟩, b :: rest)
      | none, some n =>
        match chomping? b with
        | some chomping => (⟨chomping, some n⟩, rest)
        | none => (⟨.clip, some n⟩, b :: rest)
      | none, none => ({}, cs)
    | [a] =>
      match chomping? a, increment? a with
      | some chomping, _ => (⟨chomping, none⟩, [])
      | none, some n => (⟨.clip, some n⟩, [])
      | none, none => ({}, cs)
    | [] => ({}, [])
  if isLineOver rest then some header else none

def lineOf (cs : List Char) : List Char := cs.takeWhile (!isBreak ·)

/-- The widest run of spaces up to the first line that has more than spaces.  A tabulator must not
stand behind them.  `widest` is that of earlier lines, and `width` that of this line so far. -/
def widestMargin? (widest width : Nat) : List Char → Option Nat
  | [] => some (max widest width)
  | c :: rest =>
    if c = ' ' then widestMargin? widest (width + 1) rest
    else if isBreak c then widestMargin? (max widest width) 0 rest
    else if c = '\t' then none
    else some (max widest width)

structure Block where
  /-- Its characters without those of `pending` and `empty`, the last one first. -/
  characters : List Char := []
  pending : List Char := []
  empty : List Char := []
  indented : Bool := false
  deriving DecidableEq, Repr

namespace Block

def addEmpty (b : Block) (ending : Char) : Block := { b with empty := ending :: b.empty }

/-- The block with one more line that is not empty, its last character first.  In the folded kind
the end of the line before it reads as a space, or as nothing if empty lines come between; but it
stays if one of the two lines starts with a blank. -/
def addLine (b : Block) (folded : Bool) (line : List Char) (ending : Option Char) : Block :=
  let indented := line.getLast?.any Text.isSpaceOrTab
  let joint :=
    if folded && b.pending = ['\n'] && !b.indented && !indented then
      if b.empty.isEmpty then [' '] else []
    else b.pending
  { characters := line ++ (b.empty ++ (joint ++ b.characters))
    pending := ending.toList
    empty := []
    indented := indented }

def text (b : Block) (chomping : Chomping) : String :=
  String.ofList <| List.reverse <|
    match chomping with
    | .strip => b.characters
    | .clip => b.pending ++ b.characters
    | .keep => b.empty ++ (b.pending ++ b.characters)

end Block

/-- Reads the lines of a block scalar whose lines start at column `margin`, up to the first line
that starts before, and counts the characters.  The current line has `width` spaces so far, or its
characters are in `line`, the last one first. -/
def blockFrom (folded : Bool) (margin : Nat) (b : Block) (width : Nat) (line : List Char)
    (length : Nat) : List Char → Option (Block × Nat)
  | [] => some (if line.isEmpty then b else b.addLine folded line none, length)
  | c :: rest =>
    if line.isEmpty then
      if isBreak c then blockFrom folded margin (b.addEmpty c) 0 [] (length + 1) rest
      else if margin ≤ width then blockFrom folded margin b width [c] (length + 1) rest
      else if c = ' ' then blockFrom folded margin b (width + 1) [] (length + 1) rest
      else if c = '\t' then none
      else some (b, length)
    else if isBreak c then
      blockFrom folded margin (b.addLine folded line (some c)) 0 [] (length + 1) rest
    else blockFrom folded margin b width (c :: line) (length + 1) rest

/-- Reads a block scalar behind its indicator: its text, and how many characters it takes.  What
it belongs to is indented to less than `least` columns. -/
def block? (folded : Bool) (least : Nat) (cs : List Char) : Option (String × Nat) :=
  let head := lineOf cs
  let rest := cs.drop (head.length + 1)
  match blockHeader? head with
  | none => none
  | some header =>
    let margin :=
      match header.increment with
      | some n => some (least - 1 + n)
      | none => (widestMargin? 0 0 rest).map fun margin => max margin (max least 1)
    match margin with
    | none => none
    | some margin =>
      let length := (cs.take (head.length + 1)).length
      (blockFrom folded margin {} 0 [] length rest).map fun (b, length) =>
        (b.text header.chomping, length)

end TaggedOptions.Yaml
