import TaggedOptions.Text.Blank

/-! # The characters of a YAML text

Which characters a YAML text may have, how its lines end, and what its marks look like.
-/

namespace TaggedOptions.Yaml

def isAllowed (c : Char) : Bool :=
  let n := c.toNat
  c = '\t' || c = '\n' || c = '\r' || n = 0x85 || (0x20 ≤ n && n ≤ 0x7e) ||
    (0xa0 ≤ n && n ≤ 0xfffd) || 0x10000 ≤ n

/-- The characters of a text with one character for the end of a line. -/
def withLineFeeds : List Char → List Char
  | [] => []
  | '\r' :: '\n' :: rest => '\n' :: withLineFeeds rest
  | c :: rest => (if c = '\r' || c = '\u0085' then '\n' else c) :: withLineFeeds rest

def characters? (text : String) : Option (List Char) :=
  let cs := Text.withoutMark text.toList
  if cs.all isAllowed then some (withLineFeeds cs) else none

/-- Whether a character ends a line.  Unlike a line feed, the separators of lines and paragraphs
keep their identity within a text. -/
def isBreak (c : Char) : Bool := c = '\n' || c = '\u2028' || c = '\u2029'

def isNameChar (c : Char) : Bool := c.isAlphanum || c = '_' || c = '-'

def isSpaceNext : List Char → Bool
  | [] => true
  | c :: _ => Text.isSpaceOrTab c || isBreak c

def isNext (cs : List Char) : List Char → Bool
  | [] => false
  | c :: _ => cs.contains c

def isStartMark : List Char → Bool
  | '-' :: '-' :: '-' :: rest => isSpaceNext rest
  | _ => false

def isEndMark : List Char → Bool
  | '.' :: '.' :: '.' :: rest => isSpaceNext rest
  | _ => false

def isMark (cs : List Char) : Bool := isStartMark cs || isEndMark cs

end TaggedOptions.Yaml
