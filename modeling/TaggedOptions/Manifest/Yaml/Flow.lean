import TaggedOptions.Manifest.Yaml.Stream
import TaggedOptions.Text.Hex

/-! # Scalars in running text

A plain or quoted scalar may go over several lines.  The blanks around the end of a line are no part
of it; a single end of line reads as a space, and of several ones the first is dropped.
-/

namespace TaggedOptions.Yaml

/-! ## Gaps -/

inductive Gap where
  | blanks (characters : List Char)
  /-- Ends of lines.  The first one is missing if a backslash took it away; the others come last
  first. -/
  | breaks (first : Option Char) (others : List Char)
  deriving DecidableEq, Repr

namespace Gap

def none : Gap := .blanks []

def isOpen : Gap → Bool
  | .blanks cs => !cs.isEmpty
  | .breaks _ _ => true

def isBroken : Gap → Bool
  | .blanks _ => false
  | .breaks _ _ => true

def addBlank (c : Char) : Gap → Gap
  | .blanks cs => .blanks (c :: cs)
  | .breaks first others => .breaks first others

def addBreak (c : Char) : Gap → Gap
  | .blanks _ => .breaks (some c) []
  | .breaks first others => .breaks first (c :: others)

def folded : Gap → List Char
  | .blanks cs => cs.reverse
  | .breaks .none others => others.reverse
  | .breaks (some first) others =>
    if first != '\n' then first :: others.reverse
    else if others.isEmpty then [' ']
    else others.reverse

end Gap

/-! ## Plain scalars -/

structure Plain where
  text : String
  length : Nat
  broken : Bool
  deriving DecidableEq, Repr

/-- Reads the rest of a plain scalar.  `flow` says whether it stands within brackets; otherwise
its lines start at column `margin` at least.  The characters so far come last first. -/
def plainFrom (flow : Bool) (margin column : Nat) (done : List Char) (gap : Gap) (length : Nat) :
    List Char → Option Plain
  | [] => some ⟨String.ofList done.reverse, length, gap.isBroken⟩
  | c :: rest =>
    if isBreak c then plainFrom flow margin 0 done (gap.addBreak c) (length + 1) rest
    else if Text.isSpaceOrTab c then
      if c = '\t' && gap.isBroken && column < margin then none
      else plainFrom flow margin (column + 1) done (gap.addBlank c) (length + 1) rest
    -- a word behind a gap may be a comment, or belong to what the scalar stands in
    else if gap.isOpen &&
        (c = '#' || (!flow && column < margin) || (column = 0 && isMark (c :: rest))) then
      some ⟨String.ofList done.reverse, length, gap.isBroken⟩
    -- within brackets it is unclear what such a colon is for
    else if flow && c = ':' && isNext [',', '?', '[', ']', '\x7b', '\x7d'] rest then none
    else if (c = ':' && isSpaceNext rest) ||
        (flow && [',', '[', ']', '\x7b', '\x7d'].contains c) then
      some ⟨String.ofList done.reverse, length, gap.isBroken⟩
    else
      plainFrom flow margin (column + 1) (c :: (gap.folded.reverse ++ done)) .none (length + 1) rest

/-! ## Quoted scalars -/

def escaped? : Char → Option Char
  | '0' => some '\x00'
  | 'a' => some '\x07'
  | 'b' => some '\x08'
  | 't' => some '\t'
  | '\t' => some '\t'
  | 'n' => some '\n'
  | 'v' => some '\x0b'
  | 'f' => some '\x0c'
  | 'r' => some '\r'
  | 'e' => some '\x1b'
  | ' ' => some ' '
  | '"' => some '"'
  | '/' => some '/'
  | '\\' => some '\\'
  | 'N' => some '\u0085'
  | '_' => some '\u00a0'
  | 'L' => some '\u2028'
  | 'P' => some '\u2029'
  | _ => none

def escapeDigits? : Char → Option Nat
  | 'x' => some 2
  | 'u' => some 4
  | 'U' => some 8
  | _ => none

inductive Quoting where
  | text
  | doubled
  | escape
  | unit (value left : Nat)
  deriving DecidableEq, Repr

/-- Reads the rest of a quoted scalar: its characters, and how many it takes of the text.
`lineStart` says whether a line starts here; the characters so far come last first. -/
def quotedFrom (quote : Char) (lineStart : Bool) (done : List Char) (gap : Gap) (state : Quoting)
    (length : Nat) : List Char → Option (String × Nat)
  | [] => none
  | c :: rest =>
    match state with
    | .doubled => quotedFrom quote false (c :: done) .none .text (length + 1) rest
    | .escape =>
      if isBreak c then quotedFrom quote true done (.breaks none []) .text (length + 1) rest
      else
        match escaped? c, escapeDigits? c with
        | some e, _ => quotedFrom quote false (e :: done) .none .text (length + 1) rest
        | none, some digits => quotedFrom quote false done .none (.unit 0 digits) (length + 1) rest
        | none, none => none
    | .unit value left =>
      match Text.hexValue? c with
      | none => none
      | some digit =>
        let value := value * 16 + digit
        if 1 < left then
          quotedFrom quote false done .none (.unit value (left - 1)) (length + 1) rest
        else
          match Text.character? value with
          | none => none
          | some e => quotedFrom quote false (e :: done) .none .text (length + 1) rest
    | .text =>
      if isBreak c then quotedFrom quote true done (gap.addBreak c) .text (length + 1) rest
      else if Text.isSpaceOrTab c then
        quotedFrom quote false done (gap.addBlank c) .text (length + 1) rest
      else if lineStart && isMark (c :: rest) then none
      else
        let done := gap.folded.reverse ++ done
        -- within single quotes a quote is written twice
        if c = quote then
          if quote = '\x27' && isNext ['\x27'] rest then
            quotedFrom quote false done .none .doubled (length + 1) rest
          else some (String.ofList done.reverse, length + 1)
        else if quote = '"' && c = '\\' then
          quotedFrom quote false done .none .escape (length + 1) rest
        else quotedFrom quote false (c :: done) .none .text (length + 1) rest

def quoted? (quote : Char) (cs : List Char) : Option (String × Nat) :=
  quotedFrom quote false [] .none .text 0 cs

end TaggedOptions.Yaml
