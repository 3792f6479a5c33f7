import TaggedOptions.Manifest.Yaml.Flow
import TaggedOptions.Manifest.Yaml.Mark

/-! # Reading the layout

A YAML text is cut into tokens from left to right.  The columns of lists and tables in indented
lines are kept on a stack, so that a line that starts further to the right opens one and a line that
starts further to the left closes those that it leaves.

Only the colon behind a key tells that it is one.  So the place of the last token that could start a
key is remembered, for each bracket that is open and outside them all, and the token that announces
the key is put in there afterwards.  A key ends on the line where it starts, within 1024 characters.
Where only a key can start, it is an error if none does.
-/

namespace TaggedOptions.Yaml

structure KeyPlace where
  index : Nat
  line : Nat
  column : Nat
  offset : Nat
  /-- Whether nothing but a key can start there. -/
  required : Bool
  deriving DecidableEq, Repr

structure Layout where
  line : Nat := 0
  column : Nat := 0
  offset : Nat := 0
  indents : List Nat := []
  place : Option KeyPlace := none
  /-- The same outside each open bracket, the innermost one first. -/
  outer : List (Option KeyPlace) := []
  keyAllowed : Bool := true
  tokens : List Token := []
  count : Nat := 0
  deriving Repr

namespace Layout

def flow (s : Layout) : Bool := !s.outer.isEmpty

/-- The least column of what is inside the innermost list or table in indented lines. -/
def margin (s : Layout) : Nat :=
  match s.indents with
  | [] => 0
  | indent :: _ => indent + 1

def advance (s : Layout) (c : Char) : Layout :=
  if isBreak c then { s with line := s.line + 1, column := 0, offset := s.offset + 1 }
  else { s with column := s.column + 1, offset := s.offset + 1 }

def emit (s : Layout) (t : Token) : Layout :=
  { s with tokens := t :: s.tokens, count := s.count + 1 }

def emitAt (s : Layout) (index : Nat) (ts : List Token) : Layout :=
  let behind := s.count - index
  { s with
    tokens := s.tokens.take behind ++ ts.reverse ++ s.tokens.drop behind
    count := s.count + ts.length }

/-! ## Keys -/

def isPast (s : Layout) (p : KeyPlace) : Bool := p.line < s.line || p.offset + 1024 < s.offset

def dropPlace (s : Layout) : Option Layout :=
  if s.place.any (·.required) then none else some { s with place := none }

def savePlace (s : Layout) : Option Layout :=
  if s.keyAllowed then
    s.dropPlace.map fun s =>
      { s with
        place := some
          { index := s.count
            line := s.line
            column := s.column
            offset := s.offset
            required := !s.flow && s.margin == s.column + 1 } }
  else some s

/-! ## Indentation -/

/-- The tokens that close the lists and tables at a column or further to the right, and the columns
of the others. -/
def closing (column : Nat) : List Nat → List Token × List Nat
  | [] => ([], [])
  | indent :: rest =>
    if column ≤ indent then
      let (tokens, rest) := closing column rest
      (.blockEnd :: tokens, rest)
    else ([], indent :: rest)

/-- Closes the lists and tables in indented lines at a column or further to the right.  Within
brackets the indentation means nothing. -/
def closeFrom (s : Layout) (column : Nat) : Layout :=
  if s.flow then s
  else
    let (tokens, indents) := closing column s.indents
    { s with tokens := tokens ++ s.tokens, count := s.count + tokens.length, indents := indents }

/-- Opens a list or table in indented lines at a column, in front of the token with an index, unless
one is open there. -/
def openBlock (s : Layout) (column index : Nat) (t : Token) : Layout :=
  if !s.flow && s.margin ≤ column then
    { s with indents := column :: s.indents }.emitAt index [t]
  else s

/-! ## Tokens -/

/-- Adds a token that cannot belong to a key, and that lets a key follow it or not. -/
def single (s : Layout) (t : Token) (keyAllowed : Bool) : Option Layout :=
  s.dropPlace.map fun s => { s with keyAllowed := keyAllowed }.emit t

def part (s : Layout) (t : Token) : Option Layout :=
  s.savePlace.map fun s => { s with keyAllowed := false }.emit t

def entry (s : Layout) : Option Layout :=
  if s.flow || s.keyAllowed then (s.openBlock s.column s.count .blockList).single .entry true
  else none

def key (s : Layout) : Option Layout :=
  if s.flow || s.keyAllowed then (s.openBlock s.column s.count .blockTable).single .key (!s.flow)
  else none

def value (s : Layout) : Option Layout :=
  match s.place.filter (!s.isPast ·) with
  | some p =>
    -- the table, if the key opens one, goes in front of the key
    let s := (s.emitAt p.index [.key]).openBlock p.column p.index .blockTable
    some ({ s with place := none, keyAllowed := false }.emit .value)
  | none =>
    if s.flow || s.keyAllowed then
      (s.openBlock s.column s.count .blockTable).single .value (!s.flow)
    else none

def openBracket (s : Layout) (t : Token) : Option Layout :=
  s.savePlace.map fun s =>
    { s with place := none, outer := s.place :: s.outer, keyAllowed := true }.emit t

def closeBracket (s : Layout) (t : Token) : Option Layout :=
  s.dropPlace.map fun s =>
    match s.outer with
    | [] => { s with keyAllowed := false }.emit t
    | place :: outer => { s with place := place, outer := outer, keyAllowed := false }.emit t

def blockScalar (s : Layout) (folded : Bool) (rest : List Char) : Option (Layout × Nat) :=
  match block? folded s.margin rest with
  | none => none
  | some (text, length) =>
    (s.single (.scalar (if folded then .quoted else .literal) text) true).map (·, length)

def quotedScalar (s : Layout) (quote : Char) (rest : List Char) : Option (Layout × Nat) :=
  match quoted? quote rest with
  | none => none
  | some (text, length) => (s.part (.scalar .quoted text)).map (·, length)

def plainScalar (s : Layout) (c : Char) (rest : List Char) : Option (Layout × Nat) :=
  match plainFrom s.flow s.margin (s.column + 1) [c] .none 0 rest with
  | none => none
  | some plain =>
    (s.part (.scalar .plain plain.text)).map fun s =>
      ({ s with keyAllowed := plain.broken }, plain.length)

def directive (s : Layout) (rest : List Char) : Option (Layout × Nat) :=
  let line := lineOf rest
  match directive? line with
  | none => none
  | some t => ((s.closeFrom 0).single t false).map (·, (rest.take (line.length + 1)).length)

def isIndicator (c : Char) : Bool :=
  Text.isSpaceOrTab c ||
    ['-', '?', ':', ',', '[', ']', '\x7b', '\x7d', '#', '&', '*', '!', '|', '>', '\x27', '"', '%',
      '@', '\x60'].contains c

def takeToken (s : Layout) (c : Char) (rest : List Char) : Option (Layout × Nat) :=
  if s.column = 0 && c = '%' then s.directive rest
  else if s.column = 0 && isStartMark (c :: rest) then
    ((s.closeFrom 0).single .documentStart false).map (·, 2)
  else if s.column = 0 && isEndMark (c :: rest) then
    ((s.closeFrom 0).single .documentEnd false).map (·, 2)
  else if c = '[' then (s.openBracket .openList).map (·, 0)
  else if c = '\x7b' then (s.openBracket .openTable).map (·, 0)
  else if c = ']' then (s.closeBracket .closeList).map (·, 0)
  else if c = '\x7d' then (s.closeBracket .closeTable).map (·, 0)
  else if c = ',' then (s.single .comma true).map (·, 0)
  else if c = '-' && isSpaceNext rest then s.entry.map (·, 0)
  else if c = '?' && (s.flow || isSpaceNext rest) then s.key.map (·, 0)
  else if c = ':' && (s.flow || isSpaceNext rest) then s.value.map (·, 0)
  else if c = '*' then
    (name? rest).bind fun (name, length) => (s.part (.alias name)).map (·, length)
  else if c = '&' then
    (name? rest).bind fun (name, length) => (s.part (.anchor name)).map (·, length)
  else if c = '!' then (tag? s.flow rest).bind fun (t, length) => (s.part t).map (·, length)
  else if c = '|' && !s.flow then s.blockScalar false rest
  else if c = '>' && !s.flow then s.blockScalar true rest
  else if c = '\x27' || c = '"' then s.quotedScalar c rest
  -- the dash, question mark or colon is followed by something, or it would be taken above
  else if !isIndicator c || c = '-' || (!s.flow && (c = '?' || c = ':')) then s.plainScalar c rest
  else none

/-- Reads what starts with a character, and counts the further characters of it.  Tabulators do not
indent, so they are blank only where no key may start. -/
def take (s : Layout) (c : Char) (rest : List Char) : Option (Layout × Nat) :=
  if c = ' ' || (c = '\t' && (s.flow || !s.keyAllowed)) ||
      (c = Text.byteOrderMark && s.offset = 0) then
    some (s, 0)
  else if c = '#' then some (s, (rest.takeWhile (!isBreak ·)).length)
  else if isBreak c then some ({ s with keyAllowed := s.keyAllowed || !s.flow }, 0)
  else (s.closeFrom (s.column + 1)).takeToken c rest

/-- Reads characters, of which the first `skip` belong to a token that is read already. -/
def takeAll (s : Layout) (skip : Nat) : List Char → Option Layout
  | [] => some s
  | c :: rest =>
    match skip with
    | skip + 1 => takeAll (s.advance c) skip rest
    | 0 =>
      match s.take c rest with
      | none => none
      | some (s, skip) => takeAll (s.advance c) skip rest

def finish (s : Layout) : Option (List Token) :=
  ((s.closeFrom 0).single .streamEnd false).map (·.tokens.reverse)

end Layout

def tokens? (cs : List Char) : Option (List Token) := (Layout.takeAll {} 0 cs).bind Layout.finish

end TaggedOptions.Yaml
